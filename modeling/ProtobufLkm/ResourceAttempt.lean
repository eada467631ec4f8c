import Mathlib.Data.List.Basic
import Mathlib.Order.Nat

/-!
Computations on top of a resource that may refuse. Requests are numbered in the
order they are made, and a refused one leaves the computation failed, which it
stays; a failed computation has a result all the same. How one goes on depends on
the answers to its own requests only, so a run without a failure is the run in
which everything is granted.
-/

namespace ProtobufLkm.ResourceAttempt

set_option autoImplicit false

universe u v w

/-- How far a computation got. -/
structure Progress where
  requests : Nat
  failed : Bool
  deriving DecidableEq, Repr

def Progress.start : Progress := { requests := 0, failed := false }

def granting : Nat → Bool := fun _ => false

/-- What a computation does when the given requests are refused. -/
structure Attempt (Result : Type u) where
  run : (Nat → Bool) → Progress → Progress × Result
  forward : ∀ refuses progress, progress.requests ≤ (run refuses progress).1.requests
  stays_failed : ∀ refuses progress, progress.failed = true →
    (run refuses progress).1.failed = true
  granted : ∀ refuses progress, (run refuses progress).1.failed = false →
    ∀ number, progress.requests ≤ number → number < (run refuses progress).1.requests →
      refuses number = false
  decided : ∀ refuses other progress,
    (∀ number, progress.requests ≤ number → number < (run refuses progress).1.requests →
      other number = refuses number) → run other progress = run refuses progress

namespace Attempt

variable {Result : Type u} {Other : Type v}

/-- Nothing is requested; the computation may fail. -/
def settle (result : Progress → Result) (fails : Bool) : Attempt Result where
  run _ progress :=
    ({ progress with failed := progress.failed || fails }, result progress)
  forward _ _ := le_rfl
  stays_failed _ _ failed := by simp only [failed, Bool.true_or]
  granted _ _ _ _ above below := absurd above (Nat.not_le.mpr below)
  decided _ _ _ _ := rfl

def pure (result : Result) : Attempt Result := settle (fun _ => result) false

def fail (result : Result) : Attempt Result := settle (fun _ => result) true

def hasFailed : Attempt Bool := settle Progress.failed false

/-- The answer to the next request. -/
def request : Attempt Bool where
  run refuses progress :=
    ({ requests := progress.requests + 1
       failed := progress.failed || refuses progress.requests }, !refuses progress.requests)
  forward _ progress := Nat.le_succ progress.requests
  stays_failed _ _ failed := by simp only [failed, Bool.true_or]
  granted refuses progress kept number above below := by
    have same : number = progress.requests := Nat.le_antisymm (Nat.le_of_lt_succ below) above
    rw [same]
    exact (Bool.or_eq_false_iff.mp kept).2
  decided refuses other progress agree := by
    rw [agree progress.requests le_rfl (Nat.lt_succ_self _)]

def bind (first : Attempt Result) (next : Result → Attempt Other) : Attempt Other where
  run refuses progress :=
    (next (first.run refuses progress).2).run refuses (first.run refuses progress).1
  forward refuses progress :=
    (first.forward refuses progress).trans (Attempt.forward _ refuses _)
  stays_failed refuses progress failed :=
    Attempt.stays_failed _ refuses _ (first.stays_failed refuses progress failed)
  granted refuses progress kept number above below := by
    have later := (next (first.run refuses progress).2).stays_failed refuses
      (first.run refuses progress).1
    have early : (first.run refuses progress).1.failed = false := by
      by_contra failed
      rw [later (eq_true_of_ne_false failed)] at kept
      cases kept
    by_cases inFirst : number < (first.run refuses progress).1.requests
    · exact first.granted refuses progress early number above inFirst
    · exact Attempt.granted _ refuses _ kept number (Nat.not_lt.mp inFirst) below
  decided refuses other progress agree := by
    have onward := (next (first.run refuses progress).2).forward refuses
      (first.run refuses progress).1
    have same := first.decided refuses other progress fun number above below =>
      agree number above (below.trans_le onward)
    rw [same]
    apply Attempt.decided
    intro number above below
    exact agree number ((first.forward refuses progress).trans above) below

def map (change : Result → Other) (attempt : Attempt Result) : Attempt Other :=
  attempt.bind fun result => pure (change result)

/-- A step that is left out once the computation has failed. -/
def unlessFailed (result : Result) (attempt : Attempt Result) : Attempt Result :=
  hasFailed.bind fun failed => if failed then pure result else attempt

def each (step : Result → Attempt Other) : List Result → Attempt (List Other)
  | [] => pure []
  | item :: items => (step item).bind fun first => (each step items).map (first :: ·)

end Attempt

section Runs

variable {Result : Type u} {Other : Type v}

@[simp] theorem pure_run (result : Result) (refuses : Nat → Bool) (progress : Progress) :
    (Attempt.pure result).run refuses progress = (progress, result) := by
  simp only [Attempt.pure, Attempt.settle, Bool.or_false]

@[simp] theorem fail_run (result : Result) (refuses : Nat → Bool) (progress : Progress) :
    (Attempt.fail result).run refuses progress = ({ progress with failed := true }, result) := by
  simp only [Attempt.fail, Attempt.settle, Bool.or_true]

@[simp] theorem has_failed_run (refuses : Nat → Bool) (progress : Progress) :
    Attempt.hasFailed.run refuses progress = (progress, progress.failed) := by
  simp only [Attempt.hasFailed, Attempt.settle, Bool.or_false]

@[simp] theorem bind_run (first : Attempt Result) (next : Result → Attempt Other)
    (refuses : Nat → Bool) (progress : Progress) :
    (first.bind next).run refuses progress =
      (next (first.run refuses progress).2).run refuses (first.run refuses progress).1 := rfl

@[simp] theorem map_run (change : Result → Other) (attempt : Attempt Result)
    (refuses : Nat → Bool) (progress : Progress) :
    (attempt.map change).run refuses progress =
      ((attempt.run refuses progress).1, change (attempt.run refuses progress).2) := by
  rw [Attempt.map, bind_run, pure_run]

theorem unless_failed_run (result : Result) (attempt : Attempt Result) (refuses : Nat → Bool)
    (progress : Progress) :
    (attempt.unlessFailed result).run refuses progress =
      if progress.failed then (progress, result) else attempt.run refuses progress := by
  rw [Attempt.unlessFailed, bind_run, has_failed_run]
  split_ifs with failed
  · exact pure_run result refuses progress
  · rfl

/-- Without a failure every request was granted. -/
theorem run_eq_granting {attempt : Attempt Result} {refuses : Nat → Bool} {progress : Progress}
    (kept : (attempt.run refuses progress).1.failed = false) :
    attempt.run granting progress = attempt.run refuses progress :=
  attempt.decided refuses granting progress fun number above below =>
    (attempt.granted refuses progress kept number above below).symm

/-- The requests made when everything is granted are the ones that matter. -/
theorem kept_iff (attempt : Attempt Result) (refuses : Nat → Bool) (progress : Progress) :
    (attempt.run refuses progress).1.failed = false ↔
      (attempt.run granting progress).1.failed = false ∧
        ∀ number, progress.requests ≤ number →
          number < (attempt.run granting progress).1.requests → refuses number = false := by
  constructor
  · intro kept
    rw [run_eq_granting kept]
    exact ⟨kept, attempt.granted refuses progress kept⟩
  · rintro ⟨kept, free⟩
    have same := attempt.decided granting refuses progress free
    rw [same]
    exact kept

end Runs

section Meaning

variable {Result : Type u} {Other : Type v}

/-- With everything granted the computation fails exactly when there is no
meaning, and otherwise ends with it. -/
def Means (attempt : Attempt Result) (meaning : Option Result) : Prop :=
  ∀ progress : Progress, progress.failed = false →
    ((attempt.run granting progress).1.failed = false ↔ meaning.isSome = true) ∧
      ∀ value, meaning = some value → (attempt.run granting progress).2 = value

theorem means_pure (result : Result) : Means (.pure result) (some result) := by
  intro progress kept
  rw [pure_run]
  exact ⟨iff_of_true kept rfl, fun value same => Option.some.inj same⟩

theorem means_fail (result : Result) : Means (.fail result) none := by
  intro progress _
  rw [fail_run]
  exact ⟨iff_of_false Bool.true_eq_false.mp (by simp), fun value absent => by cases absent⟩

theorem means_request : Means .request (some true) := by
  intro progress kept
  exact ⟨iff_of_true (by simp [Attempt.request, granting, kept]) rfl,
    fun value same => by cases same; rfl⟩

theorem means_bind {first : Attempt Result} {meaning : Option Result}
    {next : Result → Attempt Other} {later : Result → Option Other} (means : Means first meaning)
    (meansNext : ∀ value, meaning = some value → Means (next value) (later value)) :
    Means (first.bind next) (meaning.bind later) := by
  intro progress kept
  obtain ⟨fails, ends⟩ := means progress kept
  rw [bind_run]
  cases meaning with
  | none =>
      have failed : (first.run granting progress).1.failed = true :=
        eq_true_of_ne_false fun stays => by simpa using fails.mp stays
      have stays := (next (first.run granting progress).2).stays_failed granting _ failed
      exact ⟨iff_of_false (by simp [stays]) (by simp), fun value absent => by cases absent⟩
  | some value =>
      have result := ends value rfl
      rw [result]
      exact meansNext value rfl _ (fails.mpr rfl)

theorem means_map {attempt : Attempt Result} {meaning : Option Result} (change : Result → Other)
    (means : Means attempt meaning) : Means (attempt.map change) (meaning.map change) := by
  rw [Option.map_eq_bind]
  exact means_bind means fun value _ => means_pure (change value)

theorem means_unless_failed {attempt : Attempt Result} {meaning : Option Result} (result : Result)
    (means : Means attempt meaning) : Means (attempt.unlessFailed result) meaning := by
  intro progress kept
  rw [unless_failed_run, if_neg (by simp [kept])]
  exact means progress kept

theorem means_each {step : Result → Attempt Other} {meaning : Result → Option Other}
    (means : ∀ item, Means (step item) (meaning item)) (items : List Result) :
    Means (Attempt.each step items) (items.mapM meaning) := by
  induction items with
  | nil => exact means_pure []
  | cons item items ih =>
      have tail := fun first (_ : meaning item = some first) => means_map (first :: ·) ih
      simp only [Option.map_eq_bind] at tail
      rw [List.mapM_cons]
      exact means_bind (means item) tail

/-- A computation on a resource comes to its meaning exactly when it has one and
no request is refused that is made on the way there. -/
theorem attempt_kept_iff {attempt : Attempt Result} {meaning : Option Result}
    (means : Means attempt meaning) (refuses : Nat → Bool) {progress : Progress}
    (kept : progress.failed = false) :
    (attempt.run refuses progress).1.failed = false ↔
      meaning.isSome = true ∧
        ∀ number, progress.requests ≤ number →
          number < (attempt.run granting progress).1.requests → refuses number = false := by
  rw [kept_iff, (means progress kept).1]

theorem attempt_result {attempt : Attempt Result} {value : Result}
    (means : Means attempt (some value)) {refuses : Nat → Bool} {progress : Progress}
    (kept : progress.failed = false)
    (finished : (attempt.run refuses progress).1.failed = false) :
    (attempt.run refuses progress).2 = value := by
  rw [← run_eq_granting finished]
  exact (means progress kept).2 value rfl

end Meaning

/-- A failed computation does nothing for the items that are left. -/
theorem each_failed {Item : Type u} {Result : Type v} {step : Item → Attempt Result}
    {default : Result} {refuses : Nat → Bool} {progress : Progress}
    (idle : ∀ item, (step item).run refuses progress = (progress, default)) (items : List Item) :
    (Attempt.each step items).run refuses progress =
      (progress, items.map fun _ => default) := by
  induction items with
  | nil => exact pure_run [] refuses progress
  | cons item items ih =>
      rw [Attempt.each, bind_run, idle item, map_run, ih]
      rfl

theorem each_length {Item : Type u} {Result : Type v} (step : Item → Attempt Result)
    (items : List Item) (refuses : Nat → Bool) (progress : Progress) :
    ((Attempt.each step items).run refuses progress).2.length = items.length := by
  induction items generalizing progress with
  | nil =>
      rw [Attempt.each, pure_run]
      rfl
  | cons item items ih =>
      rw [Attempt.each, bind_run, map_run, List.length_cons, ih, List.length_cons]

end ProtobufLkm.ResourceAttempt
