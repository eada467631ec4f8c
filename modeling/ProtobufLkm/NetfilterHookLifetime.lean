import ProtobufLkm.LoadableModule

/-!
# The hook across loading and unloading

The init function of the generated module and of the netfilter examples fills in
`nfho`, registers it and returns 0 whatever the registration returned. The exit
function unregisters it. A failed load thus counts as a loaded module without a
hook, until it is unloaded.
-/

namespace ProtobufLkm.NetfilterHookLifetime

open LoadableModule

set_option autoImplicit false

def nfInetLocalIn : Nat := 1

def pfInet : Nat := 2

/-- `NF_IP_PRI_FIRST`, the least `int`. -/
def nfIpPriFirst : Int := -2147483648

/-- The fields of `struct nf_hook_ops` that the module sets. -/
structure NfHookOps (Hook : Type) where
  hook : Hook
  hooknum : Nat
  pf : Nat
  priority : Int
  deriving DecidableEq, Repr

/-- What `nf_register_net_hook` returns: 0 or a negative error. -/
structure RegisterResult where
  ret : Int
  ret_nonpos : ret ≤ 0

section Api

variable (Kernel Net Hook : Type)

/-- The hook registration of the kernel, kept abstract. -/
structure NetfilterApi where
  initNet : Net
  registrations : Kernel → Net → NfHookOps Hook → Nat
  nfRegisterNetHook : RegisterResult → Net → NfHookOps Hook → Kernel → Kernel
  nfUnregisterNetHook : Net → NfHookOps Hook → Kernel → Kernel

variable {Kernel Net Hook}

/-- What the module relies on: a registration is added if and only if 0 is
returned, and unregistering takes one away; other hooks are left alone. -/
structure NetfilterApi.Faithful (api : NetfilterApi Kernel Net Hook) : Prop where
  registers : ∀ result net ops kernel, result.ret = 0 →
    api.registrations (api.nfRegisterNetHook result net ops kernel) net ops =
      api.registrations kernel net ops + 1
  refuses : ∀ result net ops kernel, result.ret < 0 →
    api.registrations (api.nfRegisterNetHook result net ops kernel) net ops =
      api.registrations kernel net ops
  unregisters : ∀ net ops kernel,
    api.registrations (api.nfUnregisterNetHook net ops kernel) net ops =
      api.registrations kernel net ops - 1
  register_keeps : ∀ result net ops kernel otherNet otherOps, (otherNet, otherOps) ≠ (net, ops) →
    api.registrations (api.nfRegisterNetHook result net ops kernel) otherNet otherOps =
      api.registrations kernel otherNet otherOps
  unregister_keeps : ∀ net ops kernel otherNet otherOps, (otherNet, otherOps) ≠ (net, ops) →
    api.registrations (api.nfUnregisterNetHook net ops kernel) otherNet otherOps =
      api.registrations kernel otherNet otherOps

end Api

section Module

variable {Kernel Net Hook : Type} (api : NetfilterApi Kernel Net Hook) (hookFunc : Hook)

/-- `nfho` as the init function leaves it. -/
def nfho : NfHookOps Hook where
  hook := hookFunc
  hooknum := nfInetLocalIn
  pf := pfInet
  priority := nfIpPriFirst

/-- The result of the registration is not looked at. -/
def moduleInit (result : RegisterResult) (kernel : Kernel) : Int × NfHookOps Hook × Kernel :=
  (0, nfho hookFunc, api.nfRegisterNetHook result api.initNet (nfho hookFunc) kernel)

def moduleExit (ops : NfHookOps Hook) (kernel : Kernel) : Kernel :=
  api.nfUnregisterNetHook api.initNet ops kernel

def hookModule : Driver (NfHookOps Hook) Kernel RegisterResult where
  init := moduleInit api hookFunc
  exit := moduleExit api

/-- The system after the requests, from a kernel that has not seen the module. -/
def after (kernel : Kernel) (requests : List (Request RegisterResult)) :
    System (NfHookOps Hook) Kernel :=
  run (hookModule api hookFunc) ⟨none, kernel⟩ requests

def hookRegistrations (kernel : Kernel) : Nat :=
  api.registrations kernel api.initNet (nfho hookFunc)

/-- In every state the module is loaded exactly when its hook is registered
once, and every unload request that runs the exit function finds the hook
registered and leaves no registration behind. -/
structure HookMatchesModule (kernel : Kernel) (requests : List (Request RegisterResult)) :
    Prop where
  loaded_iff : ∀ earlier later, requests = earlier ++ later →
    ((after api hookFunc kernel earlier).loaded ↔
      hookRegistrations api hookFunc (after api hookFunc kernel earlier).world = 1)
  unregisters_registered : ∀ earlier later, requests = earlier ++ .unload :: later →
    ∀ ops, (after api hookFunc kernel earlier).memory = some ops →
      0 < api.registrations (after api hookFunc kernel earlier).world api.initNet ops
  unload_removes : ∀ earlier later, requests = earlier ++ .unload :: later →
    hookRegistrations api hookFunc (after api hookFunc kernel (earlier ++ [.unload])).world = 0

/-- A load request runs the init function unless one to load came directly
before it. -/
def InitsRegister (requests : List (Request RegisterResult)) : Prop :=
  ∀ earlier result later, requests = earlier ++ .load result :: later →
    Vacant earlier → result.ret = 0

end Module

section Runs

variable {Kernel Net Hook : Type} (api : NetfilterApi Kernel Net Hook) (hookFunc : Hook)
  (kernel : Kernel)

theorem after_absent_iff (requests : List (Request RegisterResult)) :
    (after api hookFunc kernel requests).memory = none ↔ Vacant requests :=
  run_absent_iff (fun _ _ => rfl) rfl requests

theorem after_load {earlier : List (Request RegisterResult)} (vacant : Vacant earlier)
    (result : RegisterResult) :
    after api hookFunc kernel (earlier ++ [.load result]) =
      ⟨some (nfho hookFunc), api.nfRegisterNetHook result api.initNet (nfho hookFunc)
        (after api hookFunc kernel earlier).world⟩ := by
  have absent := (after_absent_iff api hookFunc kernel earlier).mpr vacant
  rw [after, run_append, run_singleton]
  exact step_load_absent absent result

theorem starts_of_inits_register {requests : List (Request RegisterResult)}
    (registers : InitsRegister requests) :
    StartsWith (hookModule api hookFunc) (fun result => result.ret = 0) ⟨none, kernel⟩
      requests := by
  intro earlier result later split absent
  apply registers earlier result later split
  exact (after_absent_iff api hookFunc kernel earlier).mp absent

theorem inits_register_append {first second : List (Request RegisterResult)}
    (registers : InitsRegister (first ++ second)) : InitsRegister first := by
  intro earlier result later split
  apply registers earlier result (later ++ second)
  rw [split, List.append_assoc, List.cons_append]

end Runs

section Assertions

variable {Kernel Net Hook : Type}

def RegisteredOnce (api : NetfilterApi Kernel Net Hook) (hookFunc : Hook)
    (ops : NfHookOps Hook) (kernel : Kernel) : Prop :=
  ops = nfho hookFunc ∧ hookRegistrations api hookFunc kernel = 1

def Unregistered (api : NetfilterApi Kernel Net Hook) (hookFunc : Hook) (kernel : Kernel) : Prop :=
  hookRegistrations api hookFunc kernel = 0

abbrev HookSettled (api : NetfilterApi Kernel Net Hook) (hookFunc : Hook)
    (system : System (NfHookOps Hook) Kernel) : Prop :=
  Settled (RegisteredOnce api hookFunc) (Unregistered api hookFunc) system

theorem loaded_iff_of_settled {api : NetfilterApi Kernel Net Hook} {hookFunc : Hook}
    {system : System (NfHookOps Hook) Kernel}
    (settled : HookSettled api hookFunc system) :
    system.loaded ↔ hookRegistrations api hookFunc system.world = 1 := by
  cases found : system.memory with
  | none =>
      have none : hookRegistrations api hookFunc system.world = 0 := (settled_absent found).mp settled
      rw [System.loaded, found, none]
      exact iff_of_false Bool.false_ne_true Nat.zero_ne_one
  | some ops =>
      rw [System.loaded, found]
      exact iff_of_true rfl ((settled_present found).mp settled).2

end Assertions

section Settled

variable {Kernel Net Hook : Type} {api : NetfilterApi Kernel Net Hook} (faithful : api.Faithful)
  (hookFunc : Hook) {kernel : Kernel}

include faithful

theorem module_init_registers (result : RegisterResult) (kernel : Kernel) (success : result.ret = 0)
    (unregistered : Unregistered api hookFunc kernel) :
    HookSettled api hookFunc (start (hookModule api hookFunc) result kernel) := by
  refine ⟨rfl, ?_⟩
  have registered := faithful.registers result api.initNet (nfho hookFunc) kernel success
  rw [Unregistered, hookRegistrations] at unregistered
  rw [unregistered] at registered
  exact registered

theorem module_exit_unregisters (ops : NfHookOps Hook) (kernel : Kernel)
    (once : RegisteredOnce api hookFunc ops kernel) :
    Unregistered api hookFunc (moduleExit api ops kernel) := by
  obtain ⟨rfl, registered⟩ := once
  rw [hookRegistrations] at registered
  rw [Unregistered, hookRegistrations, moduleExit, faithful.unregisters, registered]

theorem after_settled (unregistered : hookRegistrations api hookFunc kernel = 0)
    {requests : List (Request RegisterResult)} (registers : InitsRegister requests) :
    HookSettled api hookFunc (after api hookFunc kernel requests) := by
  apply run_settled (module_init_registers faithful hookFunc)
  · exact module_exit_unregisters faithful hookFunc
  · exact (settled_absent rfl).mpr unregistered
  · exact starts_of_inits_register api hookFunc kernel registers

theorem matches_of_inits_register (unregistered : hookRegistrations api hookFunc kernel = 0)
    {requests : List (Request RegisterResult)} (registers : InitsRegister requests) :
    HookMatchesModule api hookFunc kernel requests := by
  have settled : ∀ earlier later, requests = earlier ++ later →
      HookSettled api hookFunc (after api hookFunc kernel earlier) := by
    intro earlier later split
    rw [split] at registers
    exact after_settled faithful hookFunc unregistered (inits_register_append registers)
  constructor
  · intro earlier later split
    exact loaded_iff_of_settled (settled earlier later split)
  · intro earlier later split ops present
    obtain ⟨rfl, once⟩ := (settled_present present).mp (settled earlier _ split)
    rw [hookRegistrations] at once
    exact once ▸ Nat.one_pos
  · intro earlier later split
    have absent := (after_absent_iff api hookFunc kernel _).mpr (vacant_unload earlier)
    have reached := settled (earlier ++ [.unload]) later
      (by rw [split, List.append_assoc, List.singleton_append])
    exact (settled_absent absent).mp reached

/-- A load that is not registered changes nothing but that the module is loaded. -/
theorem inits_register_of_matches {requests : List (Request RegisterResult)}
    (same : HookMatchesModule api hookFunc kernel requests) : InitsRegister requests := by
  intro earlier result later split vacant
  have absent := (after_absent_iff api hookFunc kernel earlier).mpr vacant
  have unloaded := same.loaded_iff earlier _ split
  have loaded := same.loaded_iff (earlier ++ [.load result]) later
    (by rw [split, List.append_assoc, List.singleton_append])
  rw [after_load api hookFunc kernel vacant] at loaded
  by_contra failed
  have negative : result.ret < 0 := Int.lt_iff_le_and_ne.mpr ⟨result.ret_nonpos, failed⟩
  have registered := loaded.mp rfl
  rw [hookRegistrations, faithful.refuses _ _ _ _ negative] at registered
  have present := unloaded.mpr registered
  rw [System.loaded, absent] at present
  cases present

/-- Module and hook match in all states of a run exactly when every load request
that runs the init function gets 0 from `nf_register_net_hook`. -/
theorem hook_matches_module_iff (unregistered : hookRegistrations api hookFunc kernel = 0)
    (requests : List (Request RegisterResult)) :
    HookMatchesModule api hookFunc kernel requests ↔ InitsRegister requests :=
  ⟨inits_register_of_matches faithful hookFunc,
    matches_of_inits_register faithful hookFunc unregistered⟩

end Settled

section OtherHooks

variable {Kernel Net Hook : Type} {api : NetfilterApi Kernel Net Hook} (faithful : api.Faithful)
  (hookFunc : Hook) (kernel : Kernel)

include faithful

/-- Whatever the registrations return, no request touches the hooks of others. -/
theorem other_hooks_kept {net : Net} {ops : NfHookOps Hook}
    (other : (net, ops) ≠ (api.initNet, nfho hookFunc)) (requests : List (Request RegisterResult)) :
    api.registrations (after api hookFunc kernel requests).world net ops =
      api.registrations kernel net ops := by
  have settled : Settled
      (fun own next => own = nfho hookFunc ∧
        api.registrations next net ops = api.registrations kernel net ops)
      (fun next => api.registrations next net ops = api.registrations kernel net ops)
      (after api hookFunc kernel requests) := by
    have starts : StartsWith (hookModule api hookFunc) (fun _ => True) ⟨none, kernel⟩ requests :=
      fun _ _ _ _ _ => trivial
    refine run_settled ?_ ?_ ?_ starts
    · intro result next _ same
      refine ⟨rfl, ?_⟩
      exact (faithful.register_keeps result _ _ next net ops other).trans same
    · rintro own next ⟨rfl, same⟩
      exact (faithful.unregister_keeps _ _ next net ops other).trans same
    · exact (settled_absent rfl).mpr rfl
  cases found : (after api hookFunc kernel requests).memory with
  | none => exact (settled_absent found).mp settled
  | some own => exact ((settled_present found).mp settled).2

end OtherHooks

section Samples

/-- A list of registered hooks. -/
def tableApi (Net Hook : Type) [DecidableEq Net] [DecidableEq Hook] (initNet : Net) :
    NetfilterApi (List (Net × NfHookOps Hook)) Net Hook where
  initNet := initNet
  registrations kernel net ops := kernel.count (net, ops)
  nfRegisterNetHook result net ops kernel := if result.ret = 0 then (net, ops) :: kernel else kernel
  nfUnregisterNetHook net ops kernel := kernel.erase (net, ops)

theorem table_api_faithful (Net Hook : Type) [DecidableEq Net] [DecidableEq Hook] (initNet : Net) :
    (tableApi Net Hook initNet).Faithful := by
  constructor
  · intro result net ops kernel success
    simp [tableApi, success]
  · intro result net ops kernel failure
    simp [tableApi, Int.ne_of_lt failure]
  · intro net ops kernel
    simp [tableApi]
  · intro result net ops kernel otherNet otherOps other
    simp only [tableApi]
    split_ifs
    · exact List.count_cons_of_ne other.symm
    · rfl
  · intro net ops kernel otherNet otherOps other
    exact List.count_erase_of_ne other

/-- `-ENOMEM`. -/
def noMemory : RegisterResult := ⟨-12, by decide⟩

def success : RegisterResult := ⟨0, Int.le_refl 0⟩

/-- The second load request does not run the init function. -/
theorem hook_matches_module_loaded_twice :
    HookMatchesModule (tableApi Unit String ()) "hook_func" []
      [.load success, .load noMemory, .unload] := by
  apply (hook_matches_module_iff (table_api_faithful Unit String ()) "hook_func" rfl _).mpr
  intro earlier result later split vacant
  rcases earlier with _ | ⟨first, _ | ⟨second, _ | ⟨third, others⟩⟩⟩
  · cases split
    rfl
  · cases split
    exact absurd rfl (vacant success)
  · cases split
  · simp at split

/-- The module is loaded without its hook, and its exit function unregisters
what is not registered. -/
theorem failed_registration_loads_module :
    (after (tableApi Unit String ()) "hook_func" [] [.load noMemory]).loaded ∧
      hookRegistrations (tableApi Unit String ()) "hook_func"
        (after (tableApi Unit String ()) "hook_func" [] [.load noMemory]).world = 0 ∧
      ¬HookMatchesModule (tableApi Unit String ()) "hook_func" [] [.load noMemory, .unload] := by
  refine ⟨rfl, rfl, ?_⟩
  intro same
  have once := (same.loaded_iff [.load noMemory] [.unload] rfl).mp rfl
  cases once

end Samples

end ProtobufLkm.NetfilterHookLifetime
