import Mathlib.Data.List.Basic

/-!
Who holds which resource over a sequence of actions. Releasing a resource that
is not held is a fault, and so is using one that is neither held nor borrowed;
a sequence that runs to its end has released nothing twice and used nothing
after its release. A run of activities is steady when each of them ends without
a fault and with as many resources as it began with.
-/

namespace ProtobufLkm.ResourceLedger

set_option autoImplicit false

universe u v

inductive Action (Resource : Type u) where
  | acquire (resource : Resource)
  | use (resource : Resource)
  | release (resource : Resource)

section Held

variable {Resource : Type u} [DecidableEq Resource] (borrowed : Resource → Bool)

/-- The resources held after the actions, none after a fault. -/
def held : List Resource → List (Action Resource) → Option (List Resource)
  | owned, [] => some owned
  | owned, .acquire resource :: rest => held (resource :: owned) rest
  | owned, .use resource :: rest =>
      if resource ∈ owned ∨ borrowed resource = true then held owned rest else none
  | owned, .release resource :: rest =>
      if resource ∈ owned then held (owned.erase resource) rest else none

variable {borrowed}

theorem held_uses {owned : List Resource} {actions : List (Action Resource)}
    (uses : ∀ action ∈ actions, ∃ resource, action = .use resource ∧
      (resource ∈ owned ∨ borrowed resource = true)) :
    held borrowed owned actions = some owned := by
  induction actions with
  | nil => rfl
  | cons action actions ih =>
      obtain ⟨resource, rfl, available⟩ := uses action List.mem_cons_self
      rw [held, if_pos available]
      apply ih
      intro other member
      exact uses other (List.mem_cons_of_mem _ member)

/-- What is acquired and used may be released once, which restores the ledger. -/
theorem held_acquire_use_release (owned : List Resource) (resource : Resource) :
    held borrowed owned [.acquire resource, .use resource, .release resource] = some owned := by
  simp [held]

end Held

section Steady

variable {Activity : Type v} {Resource : Type u}
  (step : Activity → List Resource → Option (List Resource))

def Steady : List Resource → List Activity → Prop
  | _, [] => True
  | owned, activity :: rest =>
      ∃ next, step activity owned = some next ∧ next.length = owned.length ∧ Steady next rest

variable {step}

/-- When whether an activity keeps the count depends on the activity alone, a
run is steady exactly when each activity in it keeps the count. -/
theorem steady_iff {Keeps : Activity → Prop}
    (keeps : ∀ activity owned, Keeps activity →
      ∃ next, step activity owned = some next ∧ next.length = owned.length)
    (kept : ∀ activity owned next, step activity owned = some next →
      next.length = owned.length → Keeps activity)
    (owned : List Resource) (activities : List Activity) :
    Steady step owned activities ↔ ∀ activity ∈ activities, Keeps activity := by
  induction activities generalizing owned with
  | nil => simp [Steady]
  | cons activity rest ih =>
      rw [List.forall_mem_cons]
      constructor
      · rintro ⟨next, ran, count, steady⟩
        exact ⟨kept activity owned next ran count, (ih next).mp steady⟩
      · rintro ⟨first, later⟩
        obtain ⟨next, ran, count⟩ := keeps activity owned first
        exact ⟨next, ran, count, (ih next).mpr later⟩

end Steady

end ProtobufLkm.ResourceLedger
