import ProtobufLkm.FramedTcpModel
import ProtobufLkm.TransitionSystem
import Mathlib.Data.List.TakeWhile

/-!
# What the server of a framed demo prints

At all times the server has printed messages the hook lets through, in the order
they were sent and without a gap. At rest it has printed all of them up to the
first one the hook drops, and rest can be reached from everywhere.
-/

namespace ProtobufLkm.FramedTcpDemo

open ByteCodec SkBuffModel NetfilterHookModel TcpSegmentModel LengthFraming
open NetfilterFrameRoundTrip FramedTcpModel

set_option autoImplicit false

section Invariant

variable {Message : Type} (demo : Demo Message)

def sentMessages (connections : List (Connection Message)) : List Message :=
  connections.map Connection.message

/-- A segment that was let through carried a message of this kind. -/
def LetThrough (message : Message) : Prop :=
  passes demo message = true ∧ (demo.marshal message).length < 2 ^ 16

/-- What the hook decided is what the rule says of the message. -/
def Filtered (connection : Connection Message) : Prop :=
  match connection.flight with
  | .unsent => True
  | .sent inspected => inspected = true → passes demo connection.message = false
  | .accepted => LetThrough demo connection.message
  | .delivered => LetThrough demo connection.message

/-- The server is done with the first connections and has printed their messages. -/
structure ServedUpTo (connections : List (Connection Message)) (printed : List Message)
    (count : Nat) : Prop where
  opened : count ≤ (sentMessages connections).length
  printed_eq : printed = (sentMessages connections).take count
  passed : ∀ message ∈ (sentMessages connections).take count, passes demo message = true

/-- Where the server stands in its connection. -/
def Position (connections : List (Connection Message)) (printed : List Message) :
    ServerState → Prop
  | .accepting next => ServedUpTo demo connections printed next
  | .readingLength index =>
      ServedUpTo demo connections printed index ∧ index < (sentMessages connections).length
  | .readingBody index messageLength => ServedUpTo demo connections printed index ∧
      ∃ connection, connections[index]? = some connection ∧ connection.flight = .delivered ∧
        messageLength = (demo.marshal connection.message).length
  | .returned => False

structure Invariant (messages : List Message) (state : DemoState Message) : Prop where
  typed : messages = sentMessages state.connections ++ state.pending
  filtered : ∀ connection ∈ state.connections, Filtered demo connection
  position : Position demo state.connections state.printed state.server

end Invariant

section Position

variable {Message : Type} {demo : Demo Message} {before after : List (Connection Message)}
  {printed more : List Message}

theorem served_of_extends (extended : sentMessages after = sentMessages before ++ more)
    {count : Nat} (served : ServedUpTo demo before printed count) :
    ServedUpTo demo after printed count := by
  have opened := served.opened
  have same : (sentMessages after).take count = (sentMessages before).take count := by
    rw [extended, List.take_append_of_le_length opened]
  constructor
  · rw [extended, List.length_append]
    omega
  · rw [same]
    exact served.printed_eq
  · rw [same]
    exact served.passed

/-- New connections and segments on their way do not move the server. -/
theorem position_of_extends (extended : sentMessages after = sentMessages before ++ more)
    (kept : ∀ (index : Nat) (connection : Connection Message), before[index]? = some connection →
      connection.flight = .delivered → after[index]? = some connection)
    {server : ServerState} (position : Position demo before printed server) :
    Position demo after printed server := by
  cases server with
  | accepting next => exact served_of_extends extended position
  | readingLength index =>
      obtain ⟨served, inside⟩ := position
      refine ⟨served_of_extends extended served, ?_⟩
      rw [extended, List.length_append]
      omega
  | readingBody index messageLength =>
      obtain ⟨served, connection, found, delivered, length⟩ := position
      exact ⟨served_of_extends extended served, connection, kept index connection found delivered,
        delivered, length⟩
  | returned => exact position

theorem served_next {connections : List (Connection Message)} {index : Nat}
    {connection : Connection Message} (served : ServedUpTo demo connections printed index)
    (found : connections[index]? = some connection)
    (passed : passes demo connection.message = true) :
    ServedUpTo demo connections (printed ++ [connection.message]) (index + 1) := by
  obtain ⟨inside, _⟩ := List.getElem?_eq_some_iff.mp found
  have message : (sentMessages connections)[index]? = some connection.message := by
    rw [sentMessages, List.getElem?_map, found]
    rfl
  have longer : (sentMessages connections).take (index + 1) =
      (sentMessages connections).take index ++ [connection.message] := by
    rw [List.take_add_one, message]
    rfl
  constructor
  · rw [sentMessages, List.length_map]
    exact inside
  · rw [longer, served.printed_eq]
  · rw [longer]
    intro other member
    rcases List.mem_append.mp member with earlier | last
    · exact served.passed other earlier
    · rw [List.mem_singleton.mp last]
      exact passed

end Position

section Updates

variable {Message : Type} {demo : Demo Message} {messages : List Message}
  {state : DemoState Message} {index : Nat} {connection : Connection Message}

theorem sent_messages_update (found : state.connections[index]? = some connection)
    (flight : Flight) :
    sentMessages (state.connections.set index { connection with flight := flight }) =
      sentMessages state.connections := by
  have message : (sentMessages state.connections)[index]? = some connection.message := by
    rw [sentMessages, List.getElem?_map, found]
    rfl
  obtain ⟨inside, own⟩ := List.getElem?_eq_some_iff.mp message
  calc sentMessages (state.connections.set index { connection with flight := flight })
      = (sentMessages state.connections).set index connection.message := List.map_set
    _ = sentMessages state.connections := by rw [← own, List.set_getElem_self]

theorem invariant_update (invariant : Invariant demo messages state)
    (found : state.connections[index]? = some connection)
    (underway : connection.flight ≠ .delivered) {flight : Flight}
    (filtered : Filtered demo { connection with flight := flight }) :
    Invariant demo messages (state.update index { connection with flight := flight }) := by
  have same := sent_messages_update found flight
  constructor
  · change messages = sentMessages (state.connections.set _ _) ++ state.pending
    rw [same]
    exact invariant.typed
  · intro other member
    rcases List.mem_or_eq_of_mem_set member with present | new
    · exact invariant.filtered other present
    · rw [new]
      exact filtered
  · apply position_of_extends (same.trans (List.append_nil _).symm) _ invariant.position
    intro other reading present delivered
    have different : index ≠ other := by
      intro clash
      rw [← clash, found, Option.some.injEq] at present
      exact underway (present ▸ delivered)
    rw [List.getElem?_set_ne different, present]

end Updates

section Steps

variable {Message : Type} {demo : Demo Message} {messages : List Message}
  {state next : DemoState Message}

theorem initial_invariant (messages : List Message) :
    Invariant demo messages (initial messages) where
  typed := rfl
  filtered := by simp [initial]
  position := ⟨Nat.zero_le _, rfl, by simp⟩

theorem client_step_invariant (invariant : Invariant demo messages state)
    (step : ClientStep state next) : Invariant demo messages next := by
  cases step with
  | @dial message rest pending written =>
      have extended :
          sentMessages (state.connections ++ [{ message := message, flight := .unsent }]) =
            sentMessages state.connections ++ [message] := by
        simp [sentMessages]
      refine ⟨?_, ?_, position_of_extends extended ?_ invariant.position⟩
      · rw [extended, List.append_assoc, List.singleton_append, ← pending]
        exact invariant.typed
      · intro connection member
        rcases List.mem_append.mp member with present | new
        · exact invariant.filtered connection present
        · rw [List.mem_singleton.mp new]
          trivial
      · intro index connection present _
        obtain ⟨inside, _⟩ := List.getElem?_eq_some_iff.mp present
        rw [List.getElem?_append_left inside, present]
  | write found unsent =>
      exact invariant_update invariant found (by rw [unsent]; decide) (by simp [Filtered])

theorem filtered_after_hook {connection : Connection Message} {api : SkbApi}
    (faithful : api.Faithful) {segment : TcpSegment} (pushed : segment.psh = true)
    (payload : segment.payload = clientFrame demo connection.message) {inspected : Bool}
    (earlier : inspected = true → passes demo connection.message = false) :
    Filtered demo { connection with
      flight := afterHook
        (hookFunc api demo.processMessage (some segment.toSkBuff)).verdict
        (inspected || buffered api segment) } := by
  rcases segment_verdict_cases faithful pushed payload with ⟨blind, verdict⟩ | ⟨inspects, verdict⟩
  · rw [verdict, blind, Bool.or_false]
    exact earlier
  · rw [verdict]
    cases judged : verdictOf demo connection.message with
    | drop =>
        intro _
        simp [passes, judged]
    | accept => exact ⟨by simp [passes, judged], framed_fits payload⟩

theorem network_step_invariant (invariant : Invariant demo messages state)
    (step : NetworkStep demo state next) : Invariant demo messages next := by
  cases step with
  | @hook index connection inspected api segment found sent faithful pushed payload =>
      have earlier := invariant.filtered connection (List.mem_of_getElem? found)
      rw [Filtered, sent] at earlier
      exact invariant_update invariant found (by rw [sent]; simp)
        (filtered_after_hook faithful pushed payload earlier)
  | @deliver index connection found accepted =>
      have earlier := invariant.filtered connection (List.mem_of_getElem? found)
      rw [Filtered, accepted] at earlier
      exact invariant_update invariant found (by rw [accepted]; decide) earlier

theorem arrived_of_delivered {connection : Connection Message}
    (delivered : connection.flight = .delivered) :
    arrived demo connection = clientFrame demo connection.message := by
  rw [arrived, delivered]

theorem delivered_of_arrived {connection : Connection Message}
    (present : 4 ≤ (arrived demo connection).length) : connection.flight = .delivered := by
  unfold arrived at present
  split at present
  · assumption
  · exact absurd present (by decide)

theorem client_frame_body (message : Message) :
    readBuffer (demo.marshal message).length ((clientFrame demo message).drop 4) =
      demo.marshal message := by
  rw [clientFrame, frame_drop, readBuffer, List.take_length, Nat.sub_self, List.replicate_zero,
    List.append_nil]

theorem sent_message_mem (invariant : Invariant demo messages state) {index : Nat}
    {connection : Connection Message} (found : state.connections[index]? = some connection) :
    connection.message ∈ messages := by
  rw [invariant.typed]
  exact List.mem_append_left _ (List.mem_map_of_mem (List.mem_of_getElem? found))

/-- A server that has read the length finds the whole message. -/
theorem body_decoded (roundTrips : RoundTrips demo messages)
    (invariant : Invariant demo messages state) {index messageLength : Nat}
    (reading : state.server = .readingBody index messageLength) :
    ∃ connection, state.connections[index]? = some connection ∧
      connection.flight = .delivered ∧
      demo.unmarshal (readBuffer messageLength ((arrived demo connection).drop 4)) =
        some connection.message := by
  have position := invariant.position
  rw [reading] at position
  obtain ⟨_, connection, found, delivered, length⟩ := position
  refine ⟨connection, found, delivered, ?_⟩
  rw [length, arrived_of_delivered delivered, client_frame_body]
  exact roundTrips _ (sent_message_mem invariant found)

theorem delivered_let_through (invariant : Invariant demo messages state) {index : Nat}
    {connection : Connection Message} (found : state.connections[index]? = some connection)
    (delivered : connection.flight = .delivered) : LetThrough demo connection.message := by
  have filtered := invariant.filtered connection (List.mem_of_getElem? found)
  rwa [Filtered, delivered] at filtered

theorem server_step_invariant (roundTrips : RoundTrips demo messages)
    (invariant : Invariant demo messages state) (step : ServerStep demo state next) :
    Invariant demo messages next := by
  have position := invariant.position
  cases step with
  | @accept index accepting inside =>
      rw [accepting] at position
      exact ⟨invariant.typed, invariant.filtered, position, by simpa [sentMessages] using inside⟩
  | @readLength index connection reading found present =>
      rw [reading] at position
      have delivered := delivered_of_arrived present
      have fits := (delivered_let_through invariant found delivered).2
      refine ⟨invariant.typed, invariant.filtered, position.1, connection, found, delivered, ?_⟩
      rw [arrived_of_delivered delivered, clientFrame, frame_size (by omega)]
  | @readMessage index messageLength connection message reading found ready decoded =>
      obtain ⟨other, present, delivered, body⟩ := body_decoded roundTrips invariant reading
      rw [found, Option.some.injEq] at present
      subst present
      rw [reading] at position
      rw [body, Option.some.injEq] at decoded
      have passed := (delivered_let_through invariant found delivered).1
      rw [← decoded]
      exact ⟨invariant.typed, invariant.filtered, served_next position.1 found passed⟩
  | @readMalformed index messageLength connection reading found ready malformed =>
      obtain ⟨other, present, _, body⟩ := body_decoded roundTrips invariant reading
      rw [found, Option.some.injEq] at present
      subst present
      rw [body] at malformed
      cases malformed

theorem step_invariant (roundTrips : RoundTrips demo messages)
    (invariant : Invariant demo messages state) (step : Step demo state next) :
    Invariant demo messages next := by
  cases step with
  | client step => exact client_step_invariant invariant step
  | network step => exact network_step_invariant invariant step
  | server step => exact server_step_invariant roundTrips invariant step

theorem reachable_invariant (roundTrips : RoundTrips demo messages)
    (reachable : Reachable demo messages state) : Invariant demo messages state := by
  have keeps : ∀ state next, Invariant demo messages state → Step demo state next →
      Invariant demo messages next := fun _ _ => step_invariant roundTrips
  exact TransitionSystem.run_keeps keeps (initial_invariant messages) reachable

end Steps

section Printed

variable {Message : Type} {demo : Demo Message} {messages : List Message}
  {state : DemoState Message}

theorem served_prefix {connections : List (Connection Message)} {printed pending : List Message}
    {count : Nat} (served : ServedUpTo demo connections printed count) :
    printed <+: (sentMessages connections ++ pending).takeWhile (passes demo) := by
  have split : sentMessages connections ++ pending =
      (sentMessages connections).take count ++
        ((sentMessages connections).drop count ++ pending) := by
    rw [← List.append_assoc, List.take_append_drop]
  rw [split, List.takeWhile_append_of_pos served.passed, served.printed_eq]
  exact List.prefix_append _ _

theorem served_of_position {connections : List (Connection Message)} {printed : List Message}
    {server : ServerState} (position : Position demo connections printed server) :
    ∃ count, ServedUpTo demo connections printed count := by
  cases server with
  | accepting next => exact ⟨next, position⟩
  | readingLength index => exact ⟨index, position.1⟩
  | readingBody index messageLength => exact ⟨index, position.1⟩
  | returned => exact position.elim

/-- In every reachable state what has been printed is the beginning of the
messages up to the first one the hook drops. -/
theorem printed_passing_prefix (roundTrips : RoundTrips demo messages)
    (reachable : Reachable demo messages state) :
    state.printed <+: messages.takeWhile (passes demo) := by
  have invariant := reachable_invariant roundTrips reachable
  obtain ⟨count, served⟩ := served_of_position invariant.position
  rw [invariant.typed]
  exact served_prefix served

theorem printed_of_exhausted {connections : List (Connection Message)} {printed : List Message}
    {next : Nat} (served : ServedUpTo demo connections printed next)
    (exhausted : connections.length ≤ next) :
    printed = (sentMessages connections).takeWhile (passes demo) := by
  have all : (sentMessages connections).take next = sentMessages connections :=
    List.take_of_length_le (by rw [sentMessages, List.length_map]; exact exhausted)
  have passed := served.passed
  rw [all] at passed
  rw [served.printed_eq, all]
  exact (List.takeWhile_eq_self_iff.mpr passed).symm

theorem printed_of_dropped {connections : List (Connection Message)} {printed : List Message}
    {index : Nat} {connection : Connection Message}
    (served : ServedUpTo demo connections printed index)
    (found : connections[index]? = some connection)
    (dropped : passes demo connection.message = false) :
    printed = (sentMessages connections).takeWhile (passes demo) := by
  have message : (sentMessages connections)[index]? = some connection.message := by
    rw [sentMessages, List.getElem?_map, found]
    rfl
  obtain ⟨inside, own⟩ := List.getElem?_eq_some_iff.mp message
  have split : sentMessages connections = (sentMessages connections).take index ++
      connection.message :: (sentMessages connections).drop (index + 1) := by
    rw [← own, ← List.drop_eq_getElem_cons inside, List.take_append_drop]
  rw [split, List.takeWhile_append_of_pos served.passed,
    List.takeWhile_cons_of_neg (by simp [dropped]), List.append_nil]
  exact served.printed_eq

theorem body_read_ready (roundTrips : RoundTrips demo messages)
    (invariant : Invariant demo messages state) {index messageLength : Nat}
    (reading : state.server = .readingBody index messageLength) :
    ∃ message, ServerStep demo state { state with
      server := .accepting (index + 1), printed := state.printed ++ [message] } := by
  obtain ⟨connection, found, delivered, body⟩ := body_decoded roundTrips invariant reading
  refine ⟨connection.message, .readMessage reading found ?_ body⟩
  have position := invariant.position
  rw [reading] at position
  obtain ⟨_, other, present, _, length⟩ := position
  rw [found, Option.some.injEq] at present
  rw [arrived_of_delivered delivered, clientFrame, frame_length, present, length]
  omega

/-- Blocked in `Accept` the server has read every connection, blocked in the
length read it waits for a segment that is dropped; the body read never blocks. -/
theorem quiescent_prints_passing (roundTrips : RoundTrips demo messages)
    (reachable : Reachable demo messages state) (quiescent : Quiescent demo state) :
    state.printed = messages.takeWhile (passes demo) := by
  have invariant := reachable_invariant roundTrips reachable
  have position := invariant.position
  have typed := invariant.typed
  rw [quiescent.sent, List.append_nil] at typed
  rw [typed]
  cases stands : state.server with
  | accepting next =>
      rw [stands] at position
      apply printed_of_exhausted position
      by_contra waiting
      exact quiescent.blocked _ (.accept stands (Nat.not_le.mp waiting))
  | readingLength index =>
      rw [stands] at position
      obtain ⟨served, inside⟩ := position
      rw [sentMessages, List.length_map] at inside
      have found := List.getElem?_eq_getElem inside
      have filtered := invariant.filtered _ (List.mem_of_getElem? found)
      rcases quiescent.settled _ (List.mem_of_getElem? found) with sent | delivered
      · rw [Filtered, sent] at filtered
        exact printed_of_dropped served found (filtered rfl)
      · exfalso
        apply quiescent.blocked _
        apply ServerStep.readLength stands found
        rw [arrived_of_delivered delivered, clientFrame, frame_length]
        omega
  | readingBody index messageLength =>
      obtain ⟨message, step⟩ := body_read_ready roundTrips invariant stands
      exact absurd step (quiescent.blocked _)
  | returned =>
      rw [stands] at position
      exact position.elim

end Printed

section Progress

def flightWeight : Flight → Nat
  | .unsent => 3
  | .sent false => 2
  | .accepted => 1
  | _ => 0

def serverWeight (total : Nat) : ServerState → Nat
  | .accepting next => 3 * (total - next)
  | .readingLength index => 3 * (total - index) - 1
  | .readingBody index _ => 3 * (total - index) - 2
  | .returned => 0

variable {Message : Type}

/-- What is still to be done on the way to rest. -/
def remaining (state : DemoState Message) : Nat :=
  4 * state.pending.length + (state.connections.map fun connection =>
    flightWeight connection.flight).sum +
    serverWeight (state.connections.length + state.pending.length) state.server

variable {demo : Demo Message} {messages : List Message} {state : DemoState Message}

theorem sum_set {Item : Type} (weight : Item → Nat) {items : List Item} {index : Nat} {item : Item}
    (found : items[index]? = some item) (replacement : Item) :
    ((items.set index replacement).map weight).sum + weight item =
      (items.map weight).sum + weight replacement := by
  induction items generalizing index with
  | nil => cases found
  | cons first rest ih =>
      cases index with
      | zero =>
          cases found
          simp only [List.set_cons_zero, List.map_cons, List.sum_cons]
          omega
      | succ index =>
          have tail := ih found
          simp only [List.set_cons_succ, List.map_cons, List.sum_cons]
          omega

theorem remaining_update {index : Nat} {connection : Connection Message}
    (found : state.connections[index]? = some connection) {flight : Flight}
    (smaller : flightWeight flight < flightWeight connection.flight) :
    remaining (state.update index { connection with flight := flight }) < remaining state := by
  have total := sum_set (fun connection => flightWeight connection.flight) found
    { connection with flight := flight }
  simp only [remaining, DemoState.update, List.length_set]
  simp only at total
  omega

theorem client_progress {message : Message} {rest : List Message}
    (pending : state.pending = message :: rest) :
    ∃ next, Step demo state next ∧ remaining next < remaining state := by
  by_cases written : ∀ connection ∈ state.connections, connection.flight ≠ .unsent
  · refine ⟨_, .client (.dial pending written), ?_⟩
    have total : state.connections.length + 1 + rest.length =
        state.connections.length + (rest.length + 1) := by omega
    simp only [remaining, pending, List.length_cons, List.map_append, List.map_cons, List.map_nil,
      List.sum_append, List.sum_cons, List.sum_nil, List.length_append, List.length_nil,
      flightWeight, Nat.zero_add, total]
    omega
  · push Not at written
    obtain ⟨connection, member, unsent⟩ := written
    obtain ⟨index, found⟩ := List.getElem?_of_mem member
    exact ⟨_, .client (.write found unsent), remaining_update found (by rw [unsent]; decide)⟩

/-- The segment is put together and inspected in a linear buffer. -/
theorem linear_hook_step {index : Nat} {connection : Connection Message}
    (small : (clientFrame demo connection.message).length ≤ 65495)
    (found : state.connections[index]? = some connection)
    (sent : connection.flight = .sent false) :
    NetworkStep demo state (state.update index { connection with
      flight := afterHook (verdictOf demo connection.message) true }) := by
  let segment := linearSegment true (clientFrame demo connection.message) small fun _ => 0
  let api := copyingApi fun _ => 0
  have linear : segment.isNonlinear = false := linear_segment_linear _ _
  have inspects : buffered api segment = true := by
    rw [buffered, linear]
    rfl
  have step := @NetworkStep.hook _ demo state index connection false api segment found sent
    (copying_api_faithful _) (linear_segment_psh _ _) (linear_segment_payload _ _)
  rwa [client_segment_verdict (copying_api_faithful _) (linear_segment_psh _ _)
    (linear_segment_payload _ _) inspects, inspects] at step

theorem hook_progress (fits : FramesFit demo messages) (invariant : Invariant demo messages state)
    {index : Nat} {connection : Connection Message}
    (found : state.connections[index]? = some connection)
    (sent : connection.flight = .sent false) :
    ∃ next, Step demo state next ∧ remaining next < remaining state := by
  have small := fits _ (sent_message_mem invariant found)
  refine ⟨_, .network (linear_hook_step small found sent), remaining_update found ?_⟩
  rw [sent]
  cases verdictOf demo connection.message <;> decide

theorem network_progress (fits : FramesFit demo messages)
    (invariant : Invariant demo messages state) {connection : Connection Message}
    (member : connection ∈ state.connections)
    (unsettled : ¬(connection.flight = .sent true ∨ connection.flight = .delivered)) :
    ∃ next, Step demo state next ∧ remaining next < remaining state := by
  obtain ⟨index, found⟩ := List.getElem?_of_mem member
  rw [not_or] at unsettled
  cases flight : connection.flight with
  | unsent =>
      exact ⟨_, .client (.write found flight), remaining_update found (by rw [flight]; decide)⟩
  | sent inspected =>
      cases inspected with
      | false => exact hook_progress fits invariant found flight
      | true => exact absurd flight unsettled.1
  | accepted =>
      exact ⟨_, .network (.deliver found flight), remaining_update found (by rw [flight]; decide)⟩
  | delivered => exact absurd flight unsettled.2

theorem server_progress (roundTrips : RoundTrips demo messages)
    (invariant : Invariant demo messages state) {next : DemoState Message}
    (step : ServerStep demo state next) :
    ∃ next, Step demo state next ∧ remaining next < remaining state := by
  refine ⟨next, .server step, ?_⟩
  have kept := server_step_invariant roundTrips invariant step
  cases step with
  | accept accepting inside =>
      simp only [remaining, accepting, serverWeight]
      omega
  | readLength reading found present =>
      obtain ⟨inside, _⟩ := List.getElem?_eq_some_iff.mp found
      simp only [remaining, reading, serverWeight]
      omega
  | readMessage reading found ready decoded =>
      obtain ⟨inside, _⟩ := List.getElem?_eq_some_iff.mp found
      simp only [remaining, reading, serverWeight]
      omega
  | readMalformed reading found ready malformed => exact kept.position.elim

theorem demo_progress (roundTrips : RoundTrips demo messages) (fits : FramesFit demo messages)
    (invariant : Invariant demo messages state) (active : ¬Quiescent demo state) :
    ∃ next, Step demo state next ∧ remaining next < remaining state := by
  cases pending : state.pending with
  | cons message rest => exact client_progress pending
  | nil =>
      by_cases settled : ∀ connection ∈ state.connections,
          connection.flight = .sent true ∨ connection.flight = .delivered
      · by_contra stuck
        apply active
        refine ⟨pending, settled, ?_⟩
        intro next step
        exact stuck (server_progress roundTrips invariant step)
      · push Not at settled
        obtain ⟨connection, member, unsettled⟩ := settled
        exact network_progress fits invariant member (not_or.mpr unsettled)

theorem rest_reachable (roundTrips : RoundTrips demo messages) (fits : FramesFit demo messages)
    (reachable : Reachable demo messages state) :
    ∃ final, Relation.ReflTransGen (Step demo) state final ∧ Quiescent demo final := by
  have keeps : ∀ state next, Invariant demo messages state → Step demo state next →
      Invariant demo messages next := fun _ _ => step_invariant roundTrips
  have progress : ∀ state, Invariant demo messages state → ¬Quiescent demo state →
      ∃ next, Step demo state next ∧ remaining next < remaining state :=
    fun _ => demo_progress roundTrips fits
  exact TransitionSystem.run_reaches remaining keeps progress
    (reachable_invariant roundTrips reachable)

end Progress

section Law

variable {Message : Type} {demo : Demo Message} {messages : List Message}

theorem take_while_congr {Item : Type} {first second : Item → Bool} {items : List Item}
    (agree : ∀ item ∈ items, first item = second item) :
    items.takeWhile first = items.takeWhile second := by
  induction items with
  | nil => rfl
  | cons item items ih =>
      have tail := ih fun other member => agree other (List.mem_cons_of_mem _ member)
      rw [List.takeWhile_cons, List.takeWhile_cons, agree item List.mem_cons_self, tail]

/-- The server prints these messages and no others: never out of order, all of
them at rest, and rest stays reachable. -/
structure PrintsExactly (demo : Demo Message) (messages expected : List Message) : Prop where
  always : ∀ state, Reachable demo messages state → state.printed <+: expected
  at_rest : ∀ state, Reachable demo messages state → Quiescent demo state →
    state.printed = expected
  can_rest : ∀ state, Reachable demo messages state →
    ∃ final, Relation.ReflTransGen (Step demo) state final ∧ Quiescent demo final

/-- Whatever the message and the rule are, the server prints the messages up to
the first one the hook drops. -/
theorem demo_prints_passing (roundTrips : RoundTrips demo messages)
    (fits : FramesFit demo messages) :
    PrintsExactly demo messages (messages.takeWhile (passes demo)) where
  always _ reachable := printed_passing_prefix roundTrips reachable
  at_rest _ reachable quiescent := quiescent_prints_passing roundTrips reachable quiescent
  can_rest _ reachable := rest_reachable roundTrips fits reachable

/-- Messages that are their own encoding, filtered by their first byte. -/
def echoDemo : Demo (List Byte) where
  marshal message := message
  unmarshal encoded := some encoded
  processMessage message := if message.head? = some 0 then .drop else .accept

example :
    PrintsExactly echoDemo [[1], [], [0, 1], [2]]
      ([[1], [], [0, 1], [2]].takeWhile (passes echoDemo)) :=
  demo_prints_passing (fun _ _ => rfl) (by
    simp [FramesFit, clientFrame, echoDemo])

end Law

end ProtobufLkm.FramedTcpDemo
