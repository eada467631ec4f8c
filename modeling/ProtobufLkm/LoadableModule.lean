import Mathlib.Data.List.Induction
import Mathlib.Tactic.SplitIfs

/-!
A kernel module under requests to load and to unload it. Loading runs its init
function in fresh memory, which stays when that returns zero and is given back
otherwise; unloading runs the exit function. A module that is there cannot be
loaded, and one that is not there cannot be unloaded. What the kernel answers to
the calls of the init function comes with the request.
-/

namespace ProtobufLkm.LoadableModule

set_option autoImplicit false

universe u v w

structure Driver (Memory : Type u) (World : Type v) (Answer : Type w) where
  init : Answer → World → Int × Memory × World
  exit : Memory → World → World

inductive Request (Answer : Type w) where
  | load (answer : Answer)
  | unload

/-- The module is loaded as long as it has memory. -/
structure System (Memory : Type u) (World : Type v) where
  memory : Option Memory
  world : World

variable {Memory : Type u} {World : Type v} {Answer : Type w}

def System.loaded (system : System Memory World) : Bool := system.memory.isSome

/-- An absent module after its init function. -/
def start (driver : Driver Memory World Answer) (answer : Answer) (world : World) :
    System Memory World :=
  let (ret, memory, next) := driver.init answer world
  ⟨if ret = 0 then some memory else none, next⟩

def step (driver : Driver Memory World Answer) (system : System Memory World) :
    Request Answer → System Memory World
  | .load answer =>
      match system.memory with
      | none => start driver answer system.world
      | some _ => system
  | .unload =>
      match system.memory with
      | none => system
      | some memory => ⟨none, driver.exit memory system.world⟩

def run (driver : Driver Memory World Answer) (system : System Memory World)
    (requests : List (Request Answer)) : System Memory World :=
  requests.foldl (step driver) system

variable {driver : Driver Memory World Answer} {system : System Memory World}

@[simp] theorem run_nil : run driver system [] = system := rfl

@[simp] theorem run_append (first second : List (Request Answer)) :
    run driver system (first ++ second) = run driver (run driver system first) second :=
  List.foldl_append

@[simp] theorem run_singleton (request : Request Answer) :
    run driver system [request] = step driver system request := rfl

theorem start_loaded (answer : Answer) (world : World) :
    (start driver answer world).loaded ↔ (driver.init answer world).1 = 0 := by
  have memory : (start driver answer world).memory =
      if (driver.init answer world).1 = 0 then some (driver.init answer world).2.1 else none := rfl
  rw [System.loaded, memory]
  split_ifs with succeeded
  · exact iff_of_true rfl succeeded
  · exact iff_of_false Bool.false_ne_true succeeded

theorem step_load_absent (absent : system.memory = none) (answer : Answer) :
    step driver system (.load answer) = start driver answer system.world := by
  rw [step, absent]

theorem step_load_present (present : system.loaded) (answer : Answer) :
    step driver system (.load answer) = system := by
  obtain ⟨memory, found⟩ := Option.isSome_iff_exists.mp present
  rw [step, found]

theorem step_unload_absent (absent : system.memory = none) :
    step driver system .unload = system := by
  rw [step, absent]

theorem step_unload_present {memory : Memory} (present : system.memory = some memory) :
    step driver system .unload = ⟨none, driver.exit memory system.world⟩ := by
  rw [step, present]

theorem step_unload_memory : (step driver system .unload).memory = none := by
  cases found : system.memory with
  | none => rw [step_unload_absent found, found]
  | some memory => rw [step_unload_present found]

section Invariant

variable (Present : Memory → World → Prop) (Absent : World → Prop)

def Settled (system : System Memory World) : Prop :=
  match system.memory with
  | none => Absent system.world
  | some memory => Present memory system.world

variable {Present Absent}

theorem settled_absent (absent : system.memory = none) :
    Settled Present Absent system ↔ Absent system.world := by
  rw [Settled, absent]

theorem settled_present {memory : Memory} (present : system.memory = some memory) :
    Settled Present Absent system ↔ Present memory system.world := by
  rw [Settled, present]

/-- Every request that runs the init function comes with a good answer. -/
def StartsWith (driver : Driver Memory World Answer) (Good : Answer → Prop)
    (system : System Memory World) (requests : List (Request Answer)) : Prop :=
  ∀ earlier answer later, requests = earlier ++ .load answer :: later →
    (run driver system earlier).memory = none → Good answer

theorem starts_with_append {Good : Answer → Prop} {first second : List (Request Answer)}
    (starts : StartsWith driver Good system (first ++ second)) :
    StartsWith driver Good system first := by
  intro earlier answer later split
  apply starts earlier answer (later ++ second)
  rw [split, List.append_assoc, List.cons_append]

theorem step_settled {Good : Answer → Prop}
    (init : ∀ answer world, Good answer → Absent world →
      Settled Present Absent (start driver answer world))
    (exit : ∀ memory world, Present memory world → Absent (driver.exit memory world))
    (settled : Settled Present Absent system) {request : Request Answer}
    (good : ∀ answer, request = .load answer → system.memory = none → Good answer) :
    Settled Present Absent (step driver system request) := by
  cases found : system.memory with
  | none =>
      have absent := (settled_absent found).mp settled
      cases request with
      | load answer =>
          rw [step_load_absent found]
          exact init answer system.world (good answer rfl found) absent
      | unload => rwa [step_unload_absent found]
  | some memory =>
      have present := (settled_present found).mp settled
      cases request with
      | load answer =>
          rw [step_load_present (Option.isSome_iff_exists.mpr ⟨memory, found⟩)]
          exact settled
      | unload =>
          rw [step_unload_present found]
          exact exit memory system.world present

/-- An init function that establishes one assertion when it succeeds and keeps
the other when it fails, with an exit function that leads back, settle every run
on good answers. -/
theorem run_settled {Good : Answer → Prop}
    (init : ∀ answer world, Good answer → Absent world →
      Settled Present Absent (start driver answer world))
    (exit : ∀ memory world, Present memory world → Absent (driver.exit memory world))
    (settled : Settled Present Absent system) {requests : List (Request Answer)}
    (starts : StartsWith driver Good system requests) :
    Settled Present Absent (run driver system requests) := by
  induction requests using List.reverseRecOn with
  | nil => exact settled
  | append_singleton earlier request ih =>
      rw [run_append, run_singleton]
      apply step_settled init exit (ih (starts_with_append starts))
      intro answer load absent
      exact starts earlier answer [] (by rw [load]) absent

end Invariant

section Vacant

/-- The last request, if there is one, is not to load. -/
def Vacant (requests : List (Request Answer)) : Prop :=
  ∀ answer, requests.getLast? ≠ some (.load answer)

theorem vacant_unload (earlier : List (Request Answer)) : Vacant (earlier ++ [.unload]) := by
  intro answer last
  rw [List.getLast?_concat] at last
  cases last

theorem not_vacant_load (earlier : List (Request Answer)) (answer : Answer) :
    ¬Vacant (earlier ++ [.load answer]) :=
  fun vacant => vacant answer List.getLast?_concat

theorem step_load_loaded (succeeds : ∀ answer world, (driver.init answer world).1 = 0)
    (answer : Answer) : (step driver system (.load answer)).loaded := by
  cases found : system.memory with
  | none =>
      rw [step_load_absent found]
      exact (start_loaded answer system.world).mpr (succeeds answer system.world)
  | some memory =>
      have present : system.loaded := Option.isSome_iff_exists.mpr ⟨memory, found⟩
      rwa [step_load_present present]

/-- With an init function that never fails, the last request decides. -/
theorem run_absent_iff (succeeds : ∀ answer world, (driver.init answer world).1 = 0)
    (absent : system.memory = none) (requests : List (Request Answer)) :
    (run driver system requests).memory = none ↔ Vacant requests := by
  rcases List.eq_nil_or_concat requests with rfl | ⟨earlier, request, rfl⟩
  · exact iff_of_true absent (by simp [Vacant])
  · rw [List.concat_eq_append, run_append, run_singleton]
    cases request with
    | load answer =>
        apply iff_of_false _ (not_vacant_load earlier answer)
        intro gone
        have loaded : (step driver (run driver system earlier) (.load answer)).loaded :=
          step_load_loaded succeeds answer
        rw [System.loaded, gone] at loaded
        cases loaded
    | unload => exact iff_of_true step_unload_memory (vacant_unload earlier)

end Vacant

end ProtobufLkm.LoadableModule
