import ProtobufLkm.UdpSocketSystem

/-!
# The port of the UDP modules

All modules bind the same address. While no other program uses the port, the
kernel refuses a `bind` exactly when another socket has the address; an open
socket without it stands in nobody's way.
-/

namespace ProtobufLkm.UdpPortSharing

open UdpReceiveModel UdpSocketLifetime UdpSocketSystem

set_option autoImplicit false

universe u

section Port

variable {Module : Type u}

def Bound (state : UdpState Module) (module : Module) : Prop :=
  (state.phase module).held = .address

def Answered (state : UdpState Module) : UdpEvent → Prop
  | .bind err => 0 ≤ err ↔ ∀ module, ¬Bound state module
  | _ => True

variable [DecidableEq Module] (kind : Module → Kind)

def PortStep (state next : UdpState Module) : Prop :=
  Step kind state next ∧ ∀ event, next.events = state.events ++ [event] → Answered state event

def PortReachable (state : UdpState Module) : Prop :=
  Relation.ReflTransGen (PortStep kind) initial state

variable {kind} {state next : UdpState Module} {module : Module}

theorem port_load {run : InitRun} (absent : state.phase module = .absent)
    (init : InitOf (kind module) run) :
    PortStep kind state (state.enter module (.starting [] run.events run.result)) := by
  refine ⟨.load absent init, fun event longer => ?_⟩
  exact absurd (List.self_eq_append_right.mp longer) (List.cons_ne_nil event [])

theorem port_call {past future : List UdpEvent} {event : UdpEvent} {result : Option Int}
    (starting : state.phase module = .starting past (event :: future) result)
    (answered : Answered state event) :
    PortStep kind state { state.enter module (.starting (past ++ [event]) future result) with
      events := state.events ++ [event] } := by
  refine ⟨.call starting, fun other called => ?_⟩
  rw [← List.singleton_inj.mp (List.append_cancel_left called)]
  exact answered

theorem port_init {past : List UdpEvent} {ret : Int}
    (starting : state.phase module = .starting past [] (some ret)) :
    PortStep kind state (state.enter module (if ret = 0 then .loaded else .absent)) := by
  refine ⟨.init starting, fun event longer => ?_⟩
  exact absurd (List.self_eq_append_right.mp longer) (List.cons_ne_nil event [])

end Port

section Bound

variable {Module : Type u} [DecidableEq Module] {kind : Module → Kind}
  {state next : UdpState Module}

theorem bound_enter {module : Module} {phase : Phase} (released : phase.held = .nothing)
    (other : Module) (bound : Bound (state.enter module phase) other) : Bound state other := by
  by_cases own : other = module
  · subst own
    rw [Bound, enter_self, released] at bound
    cases bound
  · rwa [Bound, enter_other state own] at bound

theorem address_before {held : Held} {event : UdpEvent} (binds : ∀ err, event = .bind err → err < 0)
    (address : held.after event = .address) : held = .address := by
  cases event with
  | sockCreate err =>
      rw [Held.after] at address
      split_ifs at address
  | bind err =>
      rw [Held.after, if_pos (binds err rfl)] at address
      cases address
  | sockRelease => cases address
  | kernelRecvmsg ret => exact address
  | extractMessageSize => exact address
  | processMessage message size => exact address
  | received bar => exact address

/-- A module gets the address by a `bind` of its own only. -/
theorem bound_step (step : Step kind state next) :
    (∀ module, Bound next module → Bound state module) ∨
      ∃ err own, 0 ≤ err ∧ next.events = state.events ++ [.bind err] ∧
        ∀ module, module ≠ own → Bound next module → Bound state module := by
  cases step with
  | load absent init => exact Or.inl (bound_enter rfl)
  | init starting => exact Or.inl (bound_enter (by split_ifs <;> rfl))
  | exit loaded => exact Or.inl (bound_enter rfl)
  | @call module past future event result starting =>
      have others : ∀ other, other ≠ module →
          Bound (state.enter module (.starting (past ++ [event]) future result)) other →
            Bound state other := by
        intro other different bound
        rwa [Bound, enter_other state different] at bound
      by_cases binds : ∃ err, event = .bind err ∧ 0 ≤ err
      · obtain ⟨err, rfl, succeeded⟩ := binds
        exact Or.inr ⟨err, module, succeeded, rfl, others⟩
      · apply Or.inl
        intro other bound
        by_cases own : other = module
        · subst own
          have address : Bound (state.enter other (.starting (past ++ [event]) future result)) other :=
            bound
          rw [Bound, enter_self, Phase.held, held_append] at address
          rw [Bound, starting]
          apply address_before _ address
          exact fun err same => Int.not_le.mp fun succeeded => binds ⟨err, same, succeeded⟩
        · exact others other own bound

def OneBound (state : UdpState Module) : Prop :=
  ∀ first second, Bound state first → Bound state second → first = second

theorem one_bound_step (single : OneBound state) (step : PortStep kind state next) :
    OneBound next := by
  rcases bound_step step.1 with kept | ⟨err, own, succeeded, called, others⟩
  · exact fun first second boundFirst boundSecond =>
      single first second (kept first boundFirst) (kept second boundSecond)
  · have free : ∀ module, ¬Bound state module := (step.2 _ called).mp succeeded
    have alone : ∀ module, Bound next module → module = own := by
      intro module bound
      by_contra different
      exact free module (others module different bound)
    exact fun first second boundFirst boundSecond =>
      (alone first boundFirst).trans (alone second boundSecond).symm

end Bound

section Receivers

variable {Module : Type u} [Fintype Module] {state next : UdpState Module}

/-- Whether `kernel_recvmsg` is called next, or has not returned. -/
def Receives (state : UdpState Module) (module : Module) : Prop :=
  match state.phase module with
  | .starting _ (.kernelRecvmsg _ :: _) _ => True
  | .starting _ [] none => True
  | _ => False

theorem bound_of_receives (invariant : Invariant state) {module : Module}
    (receives : Receives state module) : Bound state module := by
  unfold Receives at receives
  split at receives
  · rename_i starting
    rw [Bound, starting]
    exact (invariant.disciplined module _ _ _ starting).1
  · rename_i starting
    rw [Bound, starting]
    exact invariant.disciplined module _ _ _ starting
  · exact receives.elim

variable [DecidableEq Module] {kind : Module → Kind}

theorem port_step_keeps (state next : UdpState Module)
    (kept : Invariant state ∧ OneBound state) (step : PortStep kind state next) :
    Invariant next ∧ OneBound next :=
  ⟨step_keeps state next kept.1 step.1, one_bound_step kept.2 step⟩

/-- In no order of the calls do two modules receive at the same time. -/
theorem one_receiver (reachable : PortReachable kind state) {first second : Module}
    (receivesFirst : Receives state first) (receivesSecond : Receives state second) :
    first = second := by
  have start : Invariant (initial : UdpState Module) ∧ OneBound (initial : UdpState Module) :=
    ⟨invariant_initial, fun _ _ bound => by cases bound⟩
  obtain ⟨invariant, single⟩ := TransitionSystem.run_keeps port_step_keeps start reachable
  exact single first second (bound_of_receives invariant receivesFirst)
    (bound_of_receives invariant receivesSecond)

/-- A module loaded while the first one waits is refused the address. -/
theorem one_receiver_port_taken :
    ∃ state : UdpState Bool, PortReachable sampleKind state ∧
      state.events = [.sockCreate 0, .bind 0, .sockCreate 0, .bind (-98)] ∧
      Receives state false ∧ ∀ module, Receives state module → module = false := by
  have first : InitOf (sampleKind false) (helloWorldUdpInit (fun _ => 0) 0 0 (fun _ => 0) []) :=
    .helloWorld _ _ _ _ _
  have second : InitOf (sampleKind true) (addressBookUdpInit 0 (-98) (fun _ => 0) (.datagram [])) :=
    .addressBook _ _ _ _
  have start : PortReachable sampleKind initial := .refl
  have firstLoaded := start.tail (@port_load Bool _ _ _ false _ rfl first)
  have firstSocket := firstLoaded.tail
    (@port_call Bool _ _ _ false [] [.bind 0] (.sockCreate 0) none rfl trivial)
  have firstBound := firstSocket.tail
    (@port_call Bool _ _ _ false [.sockCreate 0] [] (.bind 0) none rfl
      (iff_of_true le_rfl fun module bound => by cases module <;> cases bound))
  have secondLoaded := firstBound.tail (@port_load Bool _ _ _ true _ rfl second)
  have secondSocket := secondLoaded.tail
    (@port_call Bool _ _ _ true [] [.bind (-98)] (.sockCreate 0) (some 0) rfl trivial)
  have reached : PortReachable sampleKind _ := secondSocket.tail
    (@port_call Bool _ _ _ true [.sockCreate 0] [] (.bind (-98)) (some 0) rfl
      (iff_of_false (by decide) fun free => free false rfl))
  exact ⟨_, reached, rfl, trivial, fun module receives => one_receiver reached receives trivial⟩

end Receivers

section Sequential

variable {Module : Type u}

def Starting (state : UdpState Module) (module : Module) : Prop :=
  ∃ past future result, state.phase module = .starting past future result

def OneStarting (state : UdpState Module) : Prop :=
  ∀ first second, Starting state first → Starting state second → first = second

theorem starting_of_bound {state : UdpState Module} {module : Module}
    (bound : Bound state module) : Starting state module := by
  rw [Bound] at bound
  cases phase : state.phase module with
  | absent =>
      rw [phase] at bound
      cases bound
  | loaded =>
      rw [phase] at bound
      cases bound
  | starting past future result => exact ⟨past, future, result, phase⟩

variable [DecidableEq Module] (kind : Module → Kind)

/-- No module is loaded before the init function of the last one has returned. -/
def SequentialStep (state next : UdpState Module) : Prop :=
  PortStep kind state next ∧ OneStarting next

variable [Fintype Module] {kind} {state next : UdpState Module}

theorem failed_binds_step (invariant : Invariant state) (step : SequentialStep kind state next) :
    failedBinds next.events = failedBinds state.events := by
  obtain ⟨⟨step, answered⟩, single⟩ := step
  cases step with
  | load absent init => rfl
  | init starting => rfl
  | exit loaded => rfl
  | @call module past future event result starting =>
      have own : Starting (state.enter module (.starting (past ++ [event]) future result)) module :=
        ⟨_, _, _, enter_self state module _⟩
      have succeeds : isFailedBind event = false := by
        cases event with
        | bind err =>
            apply decide_eq_false
            intro failure
            obtain ⟨allowed, _⟩ := invariant.disciplined module past _ result starting
            have taken : ¬∀ other, ¬Bound state other :=
              fun free => Int.not_le.mpr failure ((answered _ rfl).mpr free)
            obtain ⟨other, bound⟩ := not_forall_not.mp taken
            have different : other ≠ module := by
              intro same
              rw [same, Bound, starting, Phase.held, allowed] at bound
              cases bound
            obtain ⟨otherPast, otherFuture, otherResult, phase⟩ := starting_of_bound bound
            have stays : Starting
                (state.enter module (.starting (past ++ [.bind err]) future result)) other :=
              ⟨otherPast, otherFuture, otherResult, by rw [enter_other state different, phase]⟩
            exact different (single other module stays own)
        | sockCreate err => rfl
        | kernelRecvmsg ret => rfl
        | extractMessageSize => rfl
        | processMessage message size => rfl
        | received bar => rfl
        | sockRelease => rfl
      change failedBinds (state.events ++ [event]) = _
      rw [failed_binds_append, failedBinds, failedBinds, List.countP_singleton, succeeds]
      rfl

theorem sequential_keeps (state next : UdpState Module)
    (kept : Invariant state ∧ failedBinds state.events = 0)
    (step : SequentialStep kind state next) :
    Invariant next ∧ failedBinds next.events = 0 :=
  ⟨step_keeps state next kept.1 step.1.1, (failed_binds_step kept.1 step).trans kept.2⟩

/-- Modules that are loaded one after another all bind, and leave no socket open. -/
theorem sequential_loads_leak_nothing
    (reachable : Relation.ReflTransGen (SequentialStep kind) initial state) :
    failedBinds state.events = 0 ∧
      openSockets 0 state.events = some (holders state).card ∧
      ((∀ module, ¬Starting state module) → openSockets 0 state.events = some 0) := by
  obtain ⟨invariant, succeeded⟩ :=
    TransitionSystem.run_keeps sequential_keeps ⟨invariant_initial, rfl⟩ reachable
  have counted := invariant.counted
  rw [succeeded, Nat.zero_add] at counted
  refine ⟨succeeded, counted, fun idle => ?_⟩
  rw [counted, holders_idle]
  · rfl
  · intro module
    cases phase : state.phase module with
    | absent => exact Or.inl rfl
    | loaded => exact Or.inr rfl
    | starting past future result => exact absurd ⟨past, future, result, phase⟩ (idle module)

theorem one_starting_absent {state : UdpState Bool} (absent : state.phase true = .absent) :
    OneStarting state := by
  have own : ∀ module, Starting state module → module = false := by
    rintro (_ | _) ⟨past, future, result, starting⟩
    · rfl
    · rw [absent] at starting
      cases starting
  exact fun first second startingFirst startingSecond =>
    (own first startingFirst).trans (own second startingSecond).symm

/-- A generated module is loaded and interrupted in `kernel_recvmsg`. -/
theorem sequential_loads_leak_nothing_interrupted :
    ∃ state : UdpState Bool,
      Relation.ReflTransGen (SequentialStep fun _ => .generated) initial state ∧
        state.events = [.sockCreate 0, .bind 0, .kernelRecvmsg (-4), .sockRelease] ∧
        failedBinds state.events = 0 ∧ openSockets 0 state.events = some 0 := by
  have init : InitOf .generated (moduleInit 0 0 (fun _ => 0) (.failed ⟨-4, by decide⟩)) :=
    .generated _ _ _ _
  have start : Relation.ReflTransGen (SequentialStep fun _ : Bool => .generated) initial initial :=
    .refl
  have loaded := start.tail ⟨@port_load Bool _ _ _ false _ rfl init, one_starting_absent rfl⟩
  have socket := loaded.tail ⟨@port_call Bool _ _ _ false [] [.bind 0, .kernelRecvmsg (-4),
    .sockRelease] (.sockCreate 0) (some 0) rfl trivial, one_starting_absent rfl⟩
  have bound := socket.tail ⟨@port_call Bool _ _ _ false [.sockCreate 0] [.kernelRecvmsg (-4),
    .sockRelease] (.bind 0) (some 0) rfl
      (iff_of_true le_rfl fun module bound => by cases module <;> cases bound),
    one_starting_absent rfl⟩
  have received := bound.tail ⟨@port_call Bool _ _ _ false [.sockCreate 0, .bind 0] [.sockRelease]
    (.kernelRecvmsg (-4)) (some 0) rfl trivial, one_starting_absent rfl⟩
  have released := received.tail ⟨@port_call Bool _ _ _ false [.sockCreate 0, .bind 0,
    .kernelRecvmsg (-4)] [] .sockRelease (some 0) rfl trivial, one_starting_absent rfl⟩
  have returned := released.tail ⟨@port_init Bool _ _ _ false _ 0 rfl, one_starting_absent rfl⟩
  obtain ⟨bound, _, idle⟩ := sequential_loads_leak_nothing returned
  refine ⟨_, returned, rfl, bound, idle ?_⟩
  rintro (_ | _) ⟨past, future, result, starting⟩ <;> cases starting

end Sequential

end ProtobufLkm.UdpPortSharing
