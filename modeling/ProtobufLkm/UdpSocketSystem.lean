import ProtobufLkm.TransitionSystem
import ProtobufLkm.UdpSocketLifetime
import Mathlib.Data.Fintype.Sets
import Mathlib.Data.Finset.Card

/-!
# UDP modules side by side

Any number of modules of the three kinds may be loaded and unloaded, and while
one init function waits for a datagram the others go on. The exit functions only
print. The kernel sees the socket calls of all of them in one order.
-/

namespace ProtobufLkm.UdpSocketSystem

open ByteCodec ByteMemory UdpReceiveModel UdpSocketLifetime

set_option autoImplicit false

inductive Kind where
  | generated
  | helloWorld
  | addressBook
  deriving DecidableEq, Repr

/-- The runs of the init function of a module. -/
inductive InitOf : Kind → InitRun → Prop where
  | generated (created bound : Int) (stack : Memory) (received : RecvResult) :
      InitOf .generated (moduleInit created bound stack received)
  | helloWorld (processMessage : List Byte → Int) (created bound : Int) (stack : Memory)
      (received : List RecvResult) :
      InitOf .helloWorld (helloWorldUdpInit processMessage created bound stack received)
  | addressBook (created bound : Int) (stack : Memory) (received : RecvResult) :
      InitOf .addressBook (addressBookUdpInit created bound stack received)

inductive Phase where
  | absent
  | starting (past future : List UdpEvent) (result : Option Int)
  | loaded

universe u

/-- What every module is doing, and the calls so far. -/
structure UdpState (Module : Type u) where
  phase : Module → Phase
  events : List UdpEvent

section System

variable {Module : Type u} [DecidableEq Module] (kind : Module → Kind)

def initial : UdpState Module where
  phase _ := .absent
  events := []

def UdpState.enter (state : UdpState Module) (module : Module) (phase : Phase) :
    UdpState Module :=
  { state with phase := Function.update state.phase module phase }

inductive Step : UdpState Module → UdpState Module → Prop where
  | load {state : UdpState Module} {module : Module} {run : InitRun} :
      state.phase module = .absent →
      InitOf (kind module) run →
      Step state (state.enter module (.starting [] run.events run.result))
  | call {state : UdpState Module} {module : Module} {past future : List UdpEvent}
      {event : UdpEvent} {result : Option Int} :
      state.phase module = .starting past (event :: future) result →
      Step state { state.enter module (.starting (past ++ [event]) future result) with
        events := state.events ++ [event] }
  | init {state : UdpState Module} {module : Module} {past : List UdpEvent} {ret : Int} :
      state.phase module = .starting past [] (some ret) →
      Step state (state.enter module (if ret = 0 then .loaded else .absent))
  | exit {state : UdpState Module} {module : Module} :
      state.phase module = .loaded →
      Step state (state.enter module .absent)

def Reachable (state : UdpState Module) : Prop :=
  Relation.ReflTransGen (Step kind) initial state

end System

section Holding

/-- How far an init function is with its socket. -/
inductive Held where
  | nothing
  | socket
  | address
  deriving DecidableEq, Repr

/-- A socket whose `bind` failed is not used any more. -/
def Held.after : Held → UdpEvent → Held
  | _, .sockCreate err => if err < 0 then .nothing else .socket
  | _, .bind err => if err < 0 then .nothing else .address
  | _, .sockRelease => .nothing
  | held, _ => held

def Held.sockets : Held → Nat
  | .nothing => 0
  | _ => 1

def Phase.held : Phase → Held
  | .starting past _ _ => past.foldl Held.after .nothing
  | _ => .nothing

def isFailedBind : UdpEvent → Bool
  | .bind err => decide (err < 0)
  | _ => false

def failedBinds (events : List UdpEvent) : Nat := events.countP isFailedBind

section Phases

variable {Module : Type u} [DecidableEq Module]

@[simp] theorem enter_self (state : UdpState Module) (module : Module) (phase : Phase) :
    (state.enter module phase).phase module = phase := by
  simp only [UdpState.enter, Function.update_self]

theorem enter_other (state : UdpState Module) {module other : Module} (different : other ≠ module)
    (phase : Phase) : (state.enter module phase).phase other = state.phase other := by
  simp only [UdpState.enter, Function.update_of_ne different]

end Phases

theorem held_append (past : List UdpEvent) (event : UdpEvent) :
    (past ++ [event]).foldl Held.after .nothing =
      (past.foldl Held.after .nothing).after event := by
  rw [List.foldl_append]
  rfl

variable {Module : Type u} [Fintype Module]

def holders (state : UdpState Module) : Finset Module :=
  Finset.univ.filter fun module => (state.phase module).held ≠ .nothing

theorem mem_holders {state : UdpState Module} {module : Module} :
    module ∈ holders state ↔ (state.phase module).held ≠ .nothing := by
  rw [holders, Finset.mem_filter, and_iff_right (Finset.mem_univ module)]

theorem held_idle {phase : Phase} (idle : phase = .absent ∨ phase = .loaded) :
    phase.held = .nothing := by
  rcases idle with rfl | rfl <;> rfl

theorem holders_idle {state : UdpState Module}
    (idle : ∀ module, state.phase module = .absent ∨ state.phase module = .loaded) :
    holders state = ∅ := by
  ext module
  rw [mem_holders, held_idle (idle module)]
  exact iff_of_false (fun different => different rfl) (Finset.notMem_empty module)

variable [DecidableEq Module]

theorem card_holders (state : UdpState Module) (module : Module) :
    (holders state).card =
      ((holders state).erase module).card + (state.phase module).held.sockets := by
  by_cases idle : (state.phase module).held = .nothing
  · rw [Finset.erase_eq_of_notMem (fun member => mem_holders.mp member idle), idle]
    rfl
  · have one : (state.phase module).held.sockets = 1 := by
      cases held : (state.phase module).held with
      | nothing => exact absurd held idle
      | socket => rfl
      | address => rfl
    rw [one]
    exact (Finset.card_erase_add_one (mem_holders.mpr idle)).symm

theorem card_holders_enter (state : UdpState Module) (module : Module) (phase : Phase) :
    (holders (state.enter module phase)).card =
      ((holders state).erase module).card + phase.held.sockets := by
  have others : (holders (state.enter module phase)).erase module =
      (holders state).erase module := by
    ext other
    rw [Finset.mem_erase, Finset.mem_erase, mem_holders, mem_holders]
    apply and_congr_right
    intro different
    rw [enter_other state different]
  rw [card_holders _ module, others, enter_self]

end Holding

section Discipline

/-- What an init function may call next: it creates one socket, binds it, uses it
with its address, and releases no other. -/
def Allowed (held : Held) : UdpEvent → Prop
  | .sockCreate _ => held = .nothing
  | .bind _ => held = .socket
  | _ => held = .address

/-- Calls that keep the discipline. They leave no socket to an init function that
has returned; one that never returns waits on a bound one. -/
def Disciplined : Held → List UdpEvent → Option Int → Prop
  | held, [], some _ => held = .nothing
  | held, [], none => held = .address
  | held, event :: future, result =>
      Allowed held event ∧ Disciplined (held.after event) future result

/-- The calls between `bind` and the exit labels. -/
def Receives : UdpEvent → Prop
  | .sockCreate _ => False
  | .bind _ => False
  | .sockRelease => False
  | _ => True

theorem receive_once_receives (buffer : Memory) (received : RecvResult) :
    ∀ event ∈ receiveOnce buffer received, Receives event := by
  cases received with
  | failed err => simp [receiveOnce, Receives]
  | datagram bytes =>
      simp only [receiveOnce]
      split_ifs <;> simp [Receives]

theorem receive_iteration_receives (processMessage : List Byte → Int) (buffer : Memory)
    (received : RecvResult) :
    ∀ event ∈ (receiveIteration processMessage buffer received).1, Receives event := by
  cases received with
  | failed err => simp [receiveIteration, Receives]
  | datagram bytes =>
      simp only [receiveIteration]
      split_ifs <;> simp [Receives]

theorem receive_loop_receives (processMessage : List Byte → Int) (buffer : Memory)
    (received : List RecvResult) :
    ∀ event ∈ (receiveLoop processMessage buffer received).1, Receives event :=
  ExitingLoop.run_outputs (receive_iteration_receives processMessage) buffer received

theorem disciplined_receives {events : List UdpEvent} (receives : ∀ event ∈ events, Receives event)
    {future : List UdpEvent} {result : Option Int}
    (disciplined : Disciplined .address future result) :
    Disciplined .address (events ++ future) result := by
  induction events with
  | nil => exact disciplined
  | cons event rest ih =>
      have later := ih fun other member => receives other (List.mem_cons_of_mem _ member)
      have own := receives event List.mem_cons_self
      cases event with
      | sockCreate err => exact own.elim
      | bind err => exact own.elim
      | sockRelease => exact own.elim
      | kernelRecvmsg ret => exact ⟨rfl, later⟩
      | extractMessageSize => exact ⟨rfl, later⟩
      | processMessage message size => exact ⟨rfl, later⟩
      | received bar => exact ⟨rfl, later⟩

theorem disciplined_socket_init (created bound : Int) {receive : List UdpEvent}
    (receives : ∀ event ∈ receive, Receives event) (left : Bool) :
    Disciplined .nothing (socketInit created bound receive left).events
      (socketInit created bound receive left).result := by
  by_cases noSocket : created < 0
  · rw [socketInit, if_pos noSocket]
    exact ⟨rfl, if_pos noSocket⟩
  have socket : Held.after .nothing (.sockCreate created) = .socket := if_neg noSocket
  by_cases noAddress : bound < 0
  · rw [socketInit, if_neg noSocket, if_pos noAddress]
    exact ⟨rfl, socket, if_pos noAddress⟩
  · have address : Held.after .socket (.bind bound) = .address := if_neg noAddress
    rw [socketInit, if_neg noSocket, if_neg noAddress]
    cases left with
    | true =>
        refine ⟨rfl, socket, ?_⟩
        rw [socket, address]
        exact disciplined_receives receives ⟨rfl, rfl⟩
    | false =>
        refine ⟨rfl, socket, ?_⟩
        rw [socket, address, ← List.append_nil receive]
        exact disciplined_receives receives rfl

theorem disciplined_init {kind : Kind} {run : InitRun} (init : InitOf kind run) :
    Disciplined .nothing run.events run.result := by
  cases init with
  | generated created bound stack received =>
      exact disciplined_socket_init created bound (receive_once_receives _ received) true
  | helloWorld processMessage created bound stack received =>
      exact disciplined_socket_init created bound (receive_loop_receives processMessage _ received) _
  | addressBook created bound stack received =>
      exact disciplined_socket_init created bound (receive_once_receives _ received) true

end Discipline

section Count

theorem open_sockets_append (count : Nat) (first second : List UdpEvent) :
    openSockets count (first ++ second) =
      (openSockets count first).bind fun left => openSockets left second := by
  induction first generalizing count with
  | nil => rfl
  | cons event rest ih =>
      cases event with
      | sockCreate err => exact ih _
      | bind err => cases count <;> exact ih _
      | kernelRecvmsg ret => cases count <;> exact ih _
      | extractMessageSize => cases count <;> exact ih _
      | processMessage message size => cases count <;> exact ih _
      | received bar => cases count <;> exact ih _
      | sockRelease =>
          cases count with
          | zero => rfl
          | succ count => exact ih count

theorem failed_binds_append (first second : List UdpEvent) :
    failedBinds (first ++ second) = failedBinds first + failedBinds second :=
  List.countP_append

/-- One more call: a failed `bind` turns a socket in use into one left open. -/
theorem open_sockets_call {held : Held} {event : UdpEvent} (allowed : Allowed held event)
    (failed others : Nat) :
    openSockets (failed + (others + held.sockets)) [event] =
      some (failed + failedBinds [event] + (others + (held.after event).sockets)) := by
  cases event with
  | sockCreate err =>
      have none : held = .nothing := allowed
      subst none
      by_cases failure : err < 0
      · rw [Held.after, if_pos failure, openSockets, if_pos failure]
        rfl
      · rw [Held.after, if_neg failure, openSockets, if_neg failure]
        rfl
  | bind err =>
      have socket : held = .socket := allowed
      subst socket
      by_cases failure : err < 0
      · have counted : failedBinds [.bind err] = 1 := by simp [failedBinds, isFailedBind, failure]
        rw [Held.after, if_pos failure, counted, Nat.add_right_comm failed 1]
        rfl
      · have counted : failedBinds [.bind err] = 0 := by simp [failedBinds, isFailedBind, failure]
        rw [Held.after, if_neg failure, counted]
        rfl
  | sockRelease =>
      have address : held = .address := allowed
      subst address
      simp [openSockets, failedBinds, isFailedBind, Held.after, Held.sockets, ← Nat.add_assoc]
  | kernelRecvmsg ret => simp [openSockets, failedBinds, isFailedBind, Held.after]
  | extractMessageSize => simp [openSockets, failedBinds, isFailedBind, Held.after]
  | processMessage message size => simp [openSockets, failedBinds, isFailedBind, Held.after]
  | received bar => simp [openSockets, failedBinds, isFailedBind, Held.after]

end Count

section Runs

variable {Module : Type u} [Fintype Module]

structure Invariant (state : UdpState Module) : Prop where
  disciplined : ∀ module past future result,
    state.phase module = .starting past future result →
      Disciplined (past.foldl Held.after .nothing) future result
  counted : openSockets 0 state.events =
    some (failedBinds state.events + (holders state).card)

theorem invariant_initial : Invariant (initial : UdpState Module) := by
  constructor
  · intro module past future result starting
    cases starting
  · have vacant : holders (initial : UdpState Module) = ∅ :=
      holders_idle fun module => Or.inl rfl
    rw [vacant]
    rfl

variable [DecidableEq Module] {kind : Module → Kind}

/-- A module that enters a phase in which it holds what it held before. -/
theorem invariant_enter {state : UdpState Module} (invariant : Invariant state) {module : Module}
    {phase : Phase} (same : phase.held = (state.phase module).held)
    (disciplined : ∀ past future result, phase = .starting past future result →
      Disciplined (past.foldl Held.after .nothing) future result) :
    Invariant (state.enter module phase) := by
  constructor
  · intro other past future result entered
    by_cases own : other = module
    · subst own
      rw [enter_self] at entered
      exact disciplined past future result entered
    · rw [enter_other state own] at entered
      exact invariant.disciplined other past future result entered
  · rw [card_holders_enter, same, ← card_holders]
    exact invariant.counted

theorem invariant_call {state : UdpState Module} (invariant : Invariant state) {module : Module}
    {past future : List UdpEvent} {event : UdpEvent} {result : Option Int}
    (starting : state.phase module = .starting past (event :: future) result) :
    Invariant { state.enter module (.starting (past ++ [event]) future result) with
      events := state.events ++ [event] } := by
  obtain ⟨allowed, later⟩ := invariant.disciplined module past _ result starting
  have next := held_append past event
  constructor
  · intro other otherPast otherFuture otherResult entered
    by_cases own : other = module
    · subst own
      rw [enter_self] at entered
      cases entered
      rw [next]
      exact later
    · have kept : (state.enter module _).phase other = _ := entered
      rw [enter_other state own] at kept
      exact invariant.disciplined other otherPast otherFuture otherResult kept
  · have count := card_holders_enter state module (.starting (past ++ [event]) future result)
    have before := card_holders state module
    rw [starting] at before
    rw [Phase.held] at count before
    have total := invariant.counted
    rw [before] at total
    change openSockets 0 (state.events ++ [event]) =
      some (failedBinds (state.events ++ [event]) + (holders (state.enter module _)).card)
    rw [open_sockets_append, total, count, next, failed_binds_append]
    exact open_sockets_call allowed _ _

theorem step_keeps (state next : UdpState Module) (invariant : Invariant state)
    (step : Step kind state next) : Invariant next := by
  cases step with
  | load absent init =>
      apply invariant_enter invariant
      · rw [absent]
        rfl
      · intro past future result entered
        cases entered
        exact disciplined_init init
  | call starting => exact invariant_call invariant starting
  | @init module past ret starting =>
      have left := invariant.disciplined module past [] (some ret) starting
      apply invariant_enter invariant
      · rw [starting, Phase.held, left]
        split_ifs <;> rfl
      · intro past future result entered
        split_ifs at entered
  | exit loaded =>
      apply invariant_enter invariant
      · rw [loaded]
        rfl
      · intro past future result entered
        cases entered

theorem reachable_invariant {state : UdpState Module} (reachable : Reachable kind state) :
    Invariant state :=
  TransitionSystem.run_keeps step_keeps invariant_initial reachable

/-- Whatever was loaded and unloaded in whatever order, a socket is open for
every `bind` that ever failed, and otherwise only while an init function runs. -/
theorem open_sockets_reachable {state : UdpState Module} (reachable : Reachable kind state) :
    openSockets 0 state.events = some (failedBinds state.events + (holders state).card) ∧
      ((∀ module, state.phase module = .absent ∨ state.phase module = .loaded) →
        openSockets 0 state.events = some (failedBinds state.events)) := by
  have counted := (reachable_invariant reachable).counted
  refine ⟨counted, fun idle => ?_⟩
  rw [counted, holders_idle idle]
  rfl

end Runs

section Samples

def sampleKind (second : Bool) : Kind := if second then .addressBook else .helloWorld

/-- The first module waits for a datagram when the second finds the port taken. -/
theorem open_sockets_reachable_port_taken :
    ∃ state : UdpState Bool, Reachable sampleKind state ∧
      state.events = [.sockCreate 0, .bind 0, .sockCreate 0, .bind (-98)] ∧
      openSockets 0 state.events = some (failedBinds state.events + (holders state).card) := by
  have first : InitOf (sampleKind false) (helloWorldUdpInit (fun _ => 0) 0 0 (fun _ => 0) []) :=
    .helloWorld _ _ _ _ _
  have second : InitOf (sampleKind true) (addressBookUdpInit 0 (-98) (fun _ => 0) (.datagram [])) :=
    .addressBook _ _ _ _
  have start : Reachable sampleKind initial := .refl
  have firstLoaded := start.tail (@Step.load Bool _ _ _ false _ rfl first)
  have firstSocket := firstLoaded.tail
    (@Step.call Bool _ _ _ false [] [.bind 0] (.sockCreate 0) none rfl)
  have firstBound := firstSocket.tail
    (@Step.call Bool _ _ _ false [.sockCreate 0] [] (.bind 0) none rfl)
  have secondLoaded := firstBound.tail (@Step.load Bool _ _ _ true _ rfl second)
  have secondSocket := secondLoaded.tail
    (@Step.call Bool _ _ _ true [] [.bind (-98)] (.sockCreate 0) (some 0) rfl)
  have reached : Reachable sampleKind _ := secondSocket.tail
    (@Step.call Bool _ _ _ true [.sockCreate 0] [] (.bind (-98)) (some 0) rfl)
  exact ⟨_, reached, rfl, (open_sockets_reachable reached).1⟩

end Samples

end ProtobufLkm.UdpSocketSystem
