import ProtobufLkm.NetfilterFrameRoundTrip
import Mathlib.Logic.Relation

/-!
# The netfilter demos for any message

The Go clients and servers of the three netfilter examples differ in the message
they marshal and print, and the modules in `process_message`. This is their
common transition system: the client opens a connection for every message and
writes one frame, the hook decides on every transmission of its segment, and the
server accepts the connections in the order they were opened and reads them one
at a time. Connections stay open. Segments without payload carry no `PSH`, so the
hook lets every handshake pass and a dialled connection is established.
-/

namespace ProtobufLkm.FramedTcpModel

open ByteCodec SkBuffModel NetfilterHookModel TcpSegmentModel LengthFraming NetfilterFrameRoundTrip

set_option autoImplicit false

/-- The segment of a connection: unsent, sent without being accepted so far (and
whether the hook had a buffer to inspect on some pass), accepted, delivered. -/
inductive Flight where
  | unsent
  | sent (inspected : Bool)
  | accepted
  | delivered
  deriving DecidableEq, Repr

/-- The server is in `Accept` for its next connection, in one of the two reads
on a connection, or has returned. -/
inductive ServerState where
  | accepting (next : Nat)
  | readingLength (index : Nat)
  | readingBody (index messageLength : Nat)
  | returned
  deriving DecidableEq, Repr

/-- A rejected transmission is repeated unchanged, so its segment stays sent. -/
def afterHook (verdict : Verdict) (inspected : Bool) : Flight :=
  match verdict with
  | .accept => .accepted
  | .drop => .sent inspected

/-- The zeroed `buffer` after one `Read` that fills as much of it as has arrived. -/
def readBuffer (messageLength : Nat) (available : List Byte) : List Byte :=
  available.take messageLength ++ List.replicate (messageLength - available.length) 0

/-- What the demos differ in: the two Go codecs and the rule of the module. -/
structure Demo (Message : Type) where
  marshal : Message → List Byte
  unmarshal : List Byte → Option Message
  processMessage : List Byte → Verdict

structure Connection (Message : Type) where
  message : Message
  flight : Flight
  deriving DecidableEq, Repr

structure DemoState (Message : Type) where
  pending : List Message
  connections : List (Connection Message)
  server : ServerState
  printed : List Message
  deriving DecidableEq, Repr

variable {Message : Type}

def initial (messages : List Message) : DemoState Message :=
  { pending := messages, connections := [], server := .accepting 0, printed := [] }

def DemoState.update (state : DemoState Message) (index : Nat) (connection : Connection Message) :
    DemoState Message :=
  { state with connections := state.connections.set index connection }

section Parameters

variable (demo : Demo Message)

def clientFrame (message : Message) : List Byte := frame (demo.marshal message)

/-- What the server's side of the connection has received. -/
def arrived (connection : Connection Message) : List Byte :=
  match connection.flight with
  | .delivered => clientFrame demo connection.message
  | _ => []

inductive ClientStep : DemoState Message → DemoState Message → Prop where
  | dial {state : DemoState Message} {message : Message} {rest : List Message} :
      state.pending = message :: rest →
      (∀ connection ∈ state.connections, connection.flight ≠ .unsent) →
      ClientStep state { state with
        pending := rest
        connections := state.connections ++ [{ message := message, flight := .unsent }] }
  | write {state : DemoState Message} {index : Nat} {connection : Connection Message} :
      state.connections[index]? = some connection →
      connection.flight = .unsent →
      ClientStep state (state.update index { connection with flight := .sent false })

/-- A pushed segment carries the frame of its connection and nothing else, in any
buffer that has the TCP header in its linear head. -/
inductive NetworkStep : DemoState Message → DemoState Message → Prop where
  | hook {state : DemoState Message} {index : Nat} {connection : Connection Message}
      {inspected : Bool} (api : SkbApi) (segment : TcpSegment) :
      state.connections[index]? = some connection →
      connection.flight = .sent inspected →
      api.Faithful → segment.psh = true → segment.payload = clientFrame demo connection.message →
      NetworkStep state (state.update index { connection with
        flight := afterHook
          (hookFunc api demo.processMessage (some segment.toSkBuff)).verdict
          (inspected || buffered api segment) })
  | deliver {state : DemoState Message} {index : Nat} {connection : Connection Message} :
      state.connections[index]? = some connection →
      connection.flight = .accepted →
      NetworkStep state (state.update index { connection with flight := .delivered })

/-- `binary.Read` waits for all four bytes; `Read` returns with what is there,
and at once for an empty buffer. -/
inductive ServerStep : DemoState Message → DemoState Message → Prop where
  | accept {state : DemoState Message} {next : Nat} :
      state.server = .accepting next →
      next < state.connections.length →
      ServerStep state { state with server := .readingLength next }
  | readLength {state : DemoState Message} {index : Nat} {connection : Connection Message} :
      state.server = .readingLength index →
      state.connections[index]? = some connection →
      4 ≤ (arrived demo connection).length →
      ServerStep state { state with
        server := .readingBody index (decodeBE ((arrived demo connection).take 4)) }
  | readMessage {state : DemoState Message} {index messageLength : Nat}
      {connection : Connection Message} {message : Message} :
      state.server = .readingBody index messageLength →
      state.connections[index]? = some connection →
      messageLength = 0 ∨ 4 < (arrived demo connection).length →
      demo.unmarshal (readBuffer messageLength ((arrived demo connection).drop 4)) = some message →
      ServerStep state { state with
        server := .accepting (index + 1), printed := state.printed ++ [message] }
  | readMalformed {state : DemoState Message} {index messageLength : Nat}
      {connection : Connection Message} :
      state.server = .readingBody index messageLength →
      state.connections[index]? = some connection →
      messageLength = 0 ∨ 4 < (arrived demo connection).length →
      demo.unmarshal (readBuffer messageLength ((arrived demo connection).drop 4)) = none →
      ServerStep state { state with server := .returned }

inductive Step : DemoState Message → DemoState Message → Prop where
  | client {state next : DemoState Message} : ClientStep state next → Step state next
  | network {state next : DemoState Message} : NetworkStep demo state next → Step state next
  | server {state next : DemoState Message} : ServerStep demo state next → Step state next

def Reachable (messages : List Message) (state : DemoState Message) : Prop :=
  Relation.ReflTransGen (Step demo) (initial messages) state

/-- The client is done, every segment has been inspected, every accepted one
delivered, and the server can take no further step. -/
structure Quiescent (state : DemoState Message) : Prop where
  sent : state.pending = []
  settled : ∀ connection ∈ state.connections,
    connection.flight = .sent true ∨ connection.flight = .delivered
  blocked : ∀ next, ¬ServerStep demo state next

/-- What the hook says of a message it has a buffer for. -/
def verdictOf (message : Message) : Verdict :=
  if demo.marshal message = [] ∨ bufferSize ≤ (demo.marshal message).length then .accept
  else demo.processMessage (demo.marshal message)

def passes (message : Message) : Bool := verdictOf demo message = .accept

def RoundTrips (messages : List Message) : Prop :=
  ∀ message ∈ messages, demo.unmarshal (demo.marshal message) = some message

/-- The frames fit one IPv4 packet. -/
def FramesFit (messages : List Message) : Prop :=
  ∀ message ∈ messages, (clientFrame demo message).length ≤ 65495

end Parameters

section Verdict

variable {demo : Demo Message} {message : Message}

theorem verdict_of_empty (empty : demo.marshal message = []) : verdictOf demo message = .accept :=
  if_pos (Or.inl empty)

theorem verdict_of_judged (nonempty : demo.marshal message ≠ [])
    (small : (demo.marshal message).length < bufferSize) :
    verdictOf demo message = demo.processMessage (demo.marshal message) :=
  if_neg (not_or.mpr ⟨nonempty, not_le.mpr small⟩)

end Verdict

section Segment

variable {demo : Demo Message} {api : SkbApi} {segment : TcpSegment} {message : Message}

theorem client_segment_verdict (faithful : api.Faithful) (pushed : segment.psh = true)
    (payload : segment.payload = clientFrame demo message)
    (inspects : buffered api segment = true) :
    (hookFunc api demo.processMessage (some segment.toSkBuff)).verdict =
      verdictOf demo message := by
  rw [verdictOf]
  split_ifs with unjudged
  · exact unjudged_frame_accepted faithful _ pushed inspects payload unjudged
  · rw [not_or, not_le] at unjudged
    exact framed_message_judged faithful _ pushed inspects payload unjudged.1
      (Nat.le_of_lt_succ unjudged.2)

/-- A pass without a buffer is a drop that decides nothing. -/
theorem segment_verdict_cases (faithful : api.Faithful) (pushed : segment.psh = true)
    (payload : segment.payload = clientFrame demo message) :
    (buffered api segment = false ∧
      (hookFunc api demo.processMessage (some segment.toSkBuff)).verdict = .drop) ∨
    (buffered api segment = true ∧
      (hookFunc api demo.processMessage (some segment.toSkBuff)).verdict =
        verdictOf demo message) := by
  cases inspects : buffered api segment with
  | false => exact Or.inl ⟨rfl, unbuffered_dropped _ pushed inspects⟩
  | true => exact Or.inr ⟨rfl, client_segment_verdict faithful pushed payload inspects⟩

end Segment

end ProtobufLkm.FramedTcpModel
