import ProtobufLkm.NetfilterFrameRoundTrip
import ProtobufLkm.NetfilterHookLifetime

/-!
# Packets while hook modules come and go

The netfilter examples and generated modules may be loaded together. Each of them
registers a hook of its own, and the kernel drops a packet when one of the
registered hooks does. A module whose registration failed stays loaded and
filters nothing.
-/

namespace ProtobufLkm.HookedTraffic

open ByteCodec SkBuffModel NetfilterHookModel TcpSegmentModel LengthFraming
open LoadableModule NetfilterHookLifetime

set_option autoImplicit false

section Machine

variable {Module Kernel Net : Type} [DecidableEq Module] (api : NetfilterApi Kernel Net Module)

/-- The memory of every module that is loaded, and the kernel they share. -/
structure Machine (Module Kernel : Type) where
  memory : Module → Option (NfHookOps Module)
  kernel : Kernel

/-- A request for one of the modules. -/
structure ModuleRequest (Module : Type) where
  module : Module
  request : Request RegisterResult

def Machine.view (machine : Machine Module Kernel) (module : Module) :
    System (NfHookOps Module) Kernel :=
  ⟨machine.memory module, machine.kernel⟩

def serve (machine : Machine Module Kernel) (next : ModuleRequest Module) :
    Machine Module Kernel :=
  let system := step (hookModule api next.module) (machine.view next.module) next.request
  { memory := Function.update machine.memory next.module system.memory, kernel := system.world }

/-- The machine after the requests, from a kernel that has not seen the modules. -/
def served (kernel : Kernel) (requests : List (ModuleRequest Module)) : Machine Module Kernel :=
  requests.foldl (serve api) ⟨fun _ => none, kernel⟩

def startedNext (started : Option RegisterResult) : Request RegisterResult → Option RegisterResult
  | .load answer => some (started.getD answer)
  | .unload => none

/-- What the registration returned when the module was last loaded, unless it has
been unloaded since. -/
def started (module : Module) (requests : List (ModuleRequest Module)) : Option RegisterResult :=
  requests.foldl (fun started next =>
    if next.module = module then startedNext started next.request else started) none

def filters (module : Module) (requests : List (ModuleRequest Module)) : Bool :=
  (started module requests).any fun result => decide (result.ret = 0)

theorem serve_own (machine : Machine Module Kernel) (next : ModuleRequest Module) :
    (serve api machine next).view next.module =
      step (hookModule api next.module) (machine.view next.module) next.request := by
  simp only [serve, Machine.view, Function.update_self]

theorem serve_other {module : Module} {next : ModuleRequest Module} (other : module ≠ next.module)
    (machine : Machine Module Kernel) :
    ((serve api machine next).view module).memory = machine.memory module := by
  simp only [serve, Machine.view, Function.update_of_ne other]

/-- No registered hook drops the packet. Every hook gets copies of its own. -/
def Passes (skbApi : Module → SkbApi) (rule : Module → List Byte → Verdict) (kernel : Kernel)
    (skb : SkBuff) : Prop :=
  ∀ module, 0 < hookRegistrations api module kernel →
    (hookFunc (skbApi module) (rule module) (some skb)).verdict = .accept

end Machine

section Registrations

variable {Module Kernel Net : Type} {api : NetfilterApi Kernel Net Module}

/-- A module with its registration as the last load left it. -/
def Kept (api : NetfilterApi Kernel Net Module) (module : Module) :
    Option RegisterResult → System (NfHookOps Module) Kernel → Prop
  | none, system => system.memory = none ∧ hookRegistrations api module system.world = 0
  | some result, system => system.memory = some (nfho module) ∧
      hookRegistrations api module system.world = if result.ret = 0 then 1 else 0

theorem nfho_ne {module other : Module} (different : other ≠ module) (net : Net) :
    (net, nfho other) ≠ (net, nfho module) := by
  intro same
  exact different (congrArg NfHookOps.hook (Prod.ext_iff.mp same).2)

theorem kept_of_same {module : Module} {before : Option RegisterResult}
    {system next : System (NfHookOps Module) Kernel} (kept : Kept api module before system)
    (memory : next.memory = system.memory)
    (same : hookRegistrations api module next.world =
      hookRegistrations api module system.world) : Kept api module before next := by
  cases before with
  | none => exact ⟨memory.trans kept.1, same.trans kept.2⟩
  | some result => exact ⟨memory.trans kept.1, same.trans kept.2⟩

variable (faithful : api.Faithful)

include faithful

theorem step_kept {module : Module} {before : Option RegisterResult}
    {system : System (NfHookOps Module) Kernel} (kept : Kept api module before system)
    (request : Request RegisterResult) :
    Kept api module (startedNext before request) (step (hookModule api module) system request) := by
  cases before with
  | none =>
      obtain ⟨absent, unregistered⟩ := kept
      cases request with
      | unload =>
          rw [step_unload_absent absent]
          exact ⟨absent, unregistered⟩
      | load result =>
          rw [step_load_absent absent]
          refine ⟨rfl, ?_⟩
          rw [hookRegistrations] at unregistered
          by_cases success : result.ret = 0
          · have registered := faithful.registers result api.initNet (nfho module) system.world success
            rw [unregistered] at registered
            rw [Option.getD_none, if_pos success]
            exact registered
          · have negative : result.ret < 0 := Int.lt_iff_le_and_ne.mpr ⟨result.ret_nonpos, success⟩
            have refused := faithful.refuses result api.initNet (nfho module) system.world negative
            rw [unregistered] at refused
            rw [Option.getD_none, if_neg success]
            exact refused
  | some result =>
      obtain ⟨present, registered⟩ := kept
      cases request with
      | load answer =>
          have loaded : system.loaded := Option.isSome_iff_exists.mpr ⟨_, present⟩
          rw [step_load_present loaded]
          exact ⟨present, registered⟩
      | unload =>
          rw [step_unload_present present]
          refine ⟨rfl, ?_⟩
          have left := faithful.unregisters api.initNet (nfho module) system.world
          rw [hookRegistrations] at registered
          rw [registered] at left
          apply left.trans
          split_ifs <;> rfl

/-- A request for one module leaves the hooks of the others alone. -/
theorem step_other {module other : Module} (different : other ≠ module)
    {system : System (NfHookOps Module) Kernel} {before : Option RegisterResult}
    (kept : Kept api module before system) (request : Request RegisterResult) :
    hookRegistrations api other (step (hookModule api module) system request).world =
      hookRegistrations api other system.world := by
  cases before with
  | none =>
      cases request with
      | unload => rw [step_unload_absent kept.1]
      | load result =>
          rw [step_load_absent kept.1]
          exact faithful.register_keeps _ _ _ _ _ _ (nfho_ne different _)
  | some result =>
      cases request with
      | load answer =>
          have loaded : system.loaded := Option.isSome_iff_exists.mpr ⟨_, kept.1⟩
          rw [step_load_present loaded]
      | unload =>
          rw [step_unload_present kept.1]
          exact faithful.unregister_keeps _ _ _ _ _ (nfho_ne different _)

variable [DecidableEq Module]

/-- After any requests a hook is registered once or not at all, as the last load
of its module left it. -/
theorem served_kept {kernel : Kernel}
    (unregistered : ∀ module, hookRegistrations api module kernel = 0)
    (requests : List (ModuleRequest Module)) (module : Module) :
    Kept api module (started module requests) ((served api kernel requests).view module) := by
  induction requests using List.reverseRecOn generalizing module with
  | nil => exact ⟨rfl, unregistered module⟩
  | append_singleton earlier next ih =>
      rw [served, List.foldl_append, started, List.foldl_append]
      change Kept api module
        (if next.module = module then startedNext (started module earlier) next.request
          else started module earlier)
        ((serve api (served api kernel earlier) next).view module)
      have own := ih next.module
      by_cases same : next.module = module
      · subst same
        rw [if_pos rfl, serve_own]
        exact step_kept faithful own next.request
      · have other : module ≠ next.module := fun equal => same equal.symm
        rw [if_neg same]
        apply kept_of_same (ih module)
        · exact serve_other api other (served api kernel earlier)
        · exact step_other faithful other own next.request

theorem registered_iff_filters {kernel : Kernel}
    (unregistered : ∀ module, hookRegistrations api module kernel = 0)
    (requests : List (ModuleRequest Module)) (module : Module) :
    0 < hookRegistrations api module (served api kernel requests).kernel ↔
      filters module requests = true := by
  have kept := served_kept faithful unregistered requests module
  rw [filters]
  cases last : started module requests with
  | none =>
      rw [last] at kept
      exact iff_of_false (Nat.not_lt.mpr (Nat.le_of_eq kept.2)) Bool.false_ne_true
  | some result =>
      rw [last] at kept
      have registered := kept.2
      rw [Option.any_some, decide_eq_true_eq]
      by_cases success : result.ret = 0
      · rw [if_pos success] at registered
        exact iff_of_true (Nat.lt_of_lt_of_eq Nat.one_pos registered.symm) success
      · rw [if_neg success] at registered
        exact iff_of_false (Nat.not_lt.mpr (Nat.le_of_eq registered)) success

end Registrations

section Traffic

variable {Module Kernel Net : Type} [DecidableEq Module] {api : NetfilterApi Kernel Net Module}

/-- After any requests to load and to unload modules, a framed message that their
hooks get a buffer for and do judge passes exactly when every module with a
registered hook accepts it. -/
theorem framed_message_passes_iff (faithful : api.Faithful) {kernel : Kernel}
    (unregistered : ∀ module, hookRegistrations api module kernel = 0)
    (requests : List (ModuleRequest Module)) {skbApi : Module → SkbApi}
    (copies : ∀ module, (skbApi module).Faithful) (rule : Module → List Byte → Verdict)
    {segment : TcpSegment} (pushed : segment.psh = true)
    (inspects : ∀ module, buffered (skbApi module) segment = true) {message : List Byte}
    (payload : segment.payload = frame message) (nonempty : message ≠ [])
    (small : message.length ≤ 1023) :
    Passes api skbApi rule (served api kernel requests).kernel segment.toSkBuff ↔
      ∀ module, filters module requests = true → rule module message = .accept := by
  apply forall_congr'
  intro module
  rw [registered_iff_filters faithful unregistered requests module,
    NetfilterFrameRoundTrip.framed_message_judged (copies module) (rule module) pushed
      (inspects module) payload nonempty small]

/-- The second module would drop everything, but its registration failed. -/
theorem framed_message_passes_unregistered :
    let segment := linearSegment true (frame [7]) (by decide) fun _ => 0
    Passes (tableApi Unit Bool ()) (fun _ => copyingApi fun _ => 0)
      (fun module _ => if module then .drop else .accept)
      (served (tableApi Unit Bool ()) [] [⟨false, .load success⟩, ⟨true, .load noMemory⟩]).kernel
      segment.toSkBuff := by
  intro segment
  have pushed : segment.psh = true := linear_segment_psh _ _
  have payload : segment.payload = frame [7] := linear_segment_payload _ _
  have inspects : ∀ module : Bool, buffered (copyingApi fun _ => 0) segment = true :=
    fun _ => by simp [buffered, copyingApi]
  apply (framed_message_passes_iff (table_api_faithful Unit Bool ()) (fun _ => rfl) _
    (fun _ => copying_api_faithful fun _ => 0) _ pushed inspects payload (by decide)
    (by decide)).mpr
  intro module filtering
  cases module with
  | false => rfl
  | true => exact absurd filtering (by decide)

end Traffic

end ProtobufLkm.HookedTraffic
