import Mathlib.Logic.Relation

/-!
Runs of a step relation: what every step keeps holds after every run, and steps
that make a measure smaller lead to a goal.
-/

namespace ProtobufLkm.TransitionSystem

set_option autoImplicit false

universe u

variable {State : Type u} {step : State → State → Prop}

theorem run_keeps {Invariant : State → Prop}
    (keeps : ∀ state next, Invariant state → step state next → Invariant next)
    {state final : State} (start : Invariant state) (run : Relation.ReflTransGen step state final) :
    Invariant final := by
  induction run with
  | refl => exact start
  | tail _ last ih => exact keeps _ _ ih last

/-- From a state with the invariant the goal is reached, when every state short
of it has a step to a smaller one. -/
theorem run_reaches {Invariant Goal : State → Prop} (measure : State → Nat)
    (keeps : ∀ state next, Invariant state → step state next → Invariant next)
    (progress : ∀ state, Invariant state → ¬Goal state →
      ∃ next, step state next ∧ measure next < measure state)
    {state : State} (start : Invariant state) :
    ∃ final, Relation.ReflTransGen step state final ∧ Goal final := by
  induction size : measure state using Nat.strongRecOn generalizing state with
  | ind count ih =>
      by_cases done : Goal state
      · exact ⟨state, .refl, done⟩
      · obtain ⟨next, first, smaller⟩ := progress state start done
        have kept := keeps state next start first
        obtain ⟨final, rest, reached⟩ := ih (measure next) (size ▸ smaller) kept rfl
        exact ⟨final, .head first rest, reached⟩

end ProtobufLkm.TransitionSystem
