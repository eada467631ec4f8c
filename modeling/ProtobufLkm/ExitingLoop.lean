import Mathlib.Data.List.Basic

/-!
Loops that consume one input per iteration and may be left in any of them. A
body returns what the iteration emits and the state to go on with, or no state
when it leaves the loop; a run over finitely many inputs either has left the
loop or waits for the next input.
-/

namespace ProtobufLkm.ExitingLoop

set_option autoImplicit false

universe u v w

variable {State : Type u} {Input : Type v} {Output : Type w}

def run (body : State → Input → List Output × Option State) :
    State → List Input → List Output × Option State
  | state, [] => ([], some state)
  | state, input :: rest =>
      match body state input with
      | (outputs, none) => (outputs, none)
      | (outputs, some next) => (outputs ++ (run body next rest).1, (run body next rest).2)

variable {body : State → Input → List Output × Option State}

@[simp] theorem run_nil (state : State) : run body state [] = ([], some state) := rfl

theorem run_cons_left {state : State} {input : Input} (rest : List Input)
    (left : (body state input).2 = none) :
    run body state (input :: rest) = ((body state input).1, none) := by
  cases step : body state input with
  | mk outputs next =>
      rw [step] at left
      subst left
      simp [run, step]

theorem run_cons_next {state next : State} {input : Input} (rest : List Input)
    (continues : (body state input).2 = some next) :
    run body state (input :: rest) =
      ((body state input).1 ++ (run body next rest).1, (run body next rest).2) := by
  cases step : body state input with
  | mk outputs final =>
      rw [step] at continues
      subst continues
      simp [run, step]

/-- A run that reaches the end of its first inputs goes on from there. -/
theorem run_append {state next : State} {first : List Input} {outputs : List Output}
    (reached : run body state first = (outputs, some next)) (second : List Input) :
    run body state (first ++ second) =
      (outputs ++ (run body next second).1, (run body next second).2) := by
  induction first generalizing state outputs with
  | nil =>
      cases reached
      rfl
  | cons input rest ih =>
      cases step : (body state input).2 with
      | none =>
          rw [run_cons_left rest step] at reached
          cases reached
      | some middle =>
          rw [run_cons_next rest step] at reached
          obtain ⟨outputsEq, finalEq⟩ := Prod.mk.inj reached
          have tail := ih (Prod.ext rfl finalEq : run body middle rest = (_, some next))
          rw [List.cons_append, run_cons_next _ step, tail, ← outputsEq, List.append_assoc]

/-- A run over more inputs goes on with one iteration, and stops there if that
iteration leaves the loop. -/
theorem run_at_iteration {state next : State} {first : List Input}
    (reached : (run body state first).2 = some next) (input : Input) (second : List Input) :
    ∃ rest, (run body state (first ++ input :: second)).1 =
        (run body state first).1 ++ ((body next input).1 ++ rest) ∧
      ((body next input).2 = none → rest = []) := by
  rw [run_append (Prod.ext rfl reached) (input :: second)]
  cases step : (body next input).2 with
  | none =>
      refine ⟨[], ?_, fun _ => rfl⟩
      rw [run_cons_left second step, List.append_nil]
  | some final =>
      refine ⟨(run body final second).1, ?_, fun left => by cases left⟩
      rw [run_cons_next second step]

/-- A property of the states that every iteration on a good input keeps, and
under which it emits allowed outputs only, does both for whole runs. -/
theorem run_invariant {Good : Input → Prop} {Keeps : State → Prop} {Allowed : Output → Prop}
    (step : ∀ state input, Keeps state → Good input →
      (∀ output ∈ (body state input).1, Allowed output) ∧
        ∀ next, (body state input).2 = some next → Keeps next)
    {state : State} {inputs : List Input} (start : Keeps state)
    (good : ∀ input ∈ inputs, Good input) :
    (∀ output ∈ (run body state inputs).1, Allowed output) ∧
      ∀ final, (run body state inputs).2 = some final → Keeps final := by
  induction inputs generalizing state with
  | nil =>
      constructor
      · simp
      · intro final reached
        cases reached
        exact start
  | cons input rest ih =>
      obtain ⟨first, next⟩ := step state input start (good input List.mem_cons_self)
      cases continues : (body state input).2 with
      | none =>
          rw [run_cons_left rest continues]
          exact ⟨first, fun final reached => by cases reached⟩
      | some middle =>
          obtain ⟨later, final⟩ := ih (next middle continues) fun other member =>
            good other (List.mem_cons_of_mem _ member)
          rw [run_cons_next rest continues]
          refine ⟨?_, final⟩
          intro output member
          rcases List.mem_append.mp member with now | afterwards
          · exact first output now
          · exact later output afterwards

theorem run_outputs {Allowed : Output → Prop}
    (emits : ∀ state input, ∀ output ∈ (body state input).1, Allowed output)
    (state : State) (inputs : List Input) :
    ∀ output ∈ (run body state inputs).1, Allowed output := by
  have kept := @run_invariant State Input Output body (fun _ => True) (fun _ => True) Allowed
    (fun state input _ _ => ⟨emits state input, fun _ _ => trivial⟩) state inputs trivial
    (fun _ _ => trivial)
  exact kept.1

end ProtobufLkm.ExitingLoop
