import ProtobufLkm.FileWrites

/-!
A program that writes files until something fails. What it has written then is
the beginning of what it was going to write, and the last of these files may
have been cut off. A file written last is written only when all others are
complete.
-/

namespace ProtobufLkm.InterruptedWrites

open FileWrites

set_option autoImplicit false

universe u v

variable {Path : Type u} {Content : Type v}

/-- The writes of a run and whether it came to its end. -/
structure Attempt (Path : Type u) (Content : Type v) where
  writes : List (FileWrite Path Content)
  returned : Bool

def Attempt.andThen (first second : Attempt Path Content) : Attempt Path Content :=
  if first.returned then ⟨first.writes ++ second.writes, second.returned⟩ else first

def done : Attempt Path Content := ⟨[], true⟩

def failed : Attempt Path Content := ⟨[], false⟩

/-- Whether a write fails may depend on what was written before. -/
abbrev Procedure (Path : Type u) (Content : Type v) :=
  List (FileWrite Path Content) → Attempt Path Content

def Procedure.andThen (first second : Procedure Path Content) : Procedure Path Content :=
  fun earlier => (first earlier).andThen (second (earlier ++ (first earlier).writes))

/-- The attempt carries the plan out, up to a failure. -/
inductive Follows (part : Content → Content → Prop) :
    List (FileWrite Path Content) → Attempt Path Content → Prop where
  | complete (plan : List (FileWrite Path Content)) : Follows part plan ⟨plan, true⟩
  | stopped (written rest : List (FileWrite Path Content)) :
      Follows part (written ++ rest) ⟨written, false⟩
  | cut (written rest : List (FileWrite Path Content)) (next : FileWrite Path Content)
      (content : Content) : part content next.content →
      Follows part (written ++ next :: rest) ⟨written ++ [⟨next.path, content⟩], false⟩

/-- The procedure writes allowed paths only, however far it comes. -/
def Within (allowed : Path → Prop) (procedure : Procedure Path Content) : Prop :=
  ∀ earlier, ∀ write ∈ (procedure earlier).writes, allowed write.path

section Procedures

variable {first second : Procedure Path Content} {earlier : List (FileWrite Path Content)}

theorem and_then_stopped (stopped : (first earlier).returned = false) :
    first.andThen second earlier = first earlier := by
  rw [Procedure.andThen, Attempt.andThen, if_neg (by rw [stopped]; exact Bool.false_ne_true)]

theorem and_then_went_on (returned : (first earlier).returned = true) :
    first.andThen second earlier =
      ⟨(first earlier).writes ++ (second (earlier ++ (first earlier).writes)).writes,
        (second (earlier ++ (first earlier).writes)).returned⟩ := by
  rw [Procedure.andThen, Attempt.andThen, if_pos returned]

theorem and_then_done {written more : List (FileWrite Path Content)}
    (own : first earlier = ⟨written, true⟩) (behind : second (earlier ++ written) = ⟨more, true⟩) :
    first.andThen second earlier = ⟨written ++ more, true⟩ := by
  rw [and_then_went_on (congrArg Attempt.returned own), own, behind]

theorem and_then_returned (returned : (first.andThen second earlier).returned = true) :
    (first earlier).returned = true ∧
      (second (earlier ++ (first earlier).writes)).returned = true := by
  cases own : (first earlier).returned with
  | false =>
      rw [and_then_stopped own, own] at returned
      cases returned
  | true =>
      rw [and_then_went_on own] at returned
      exact ⟨rfl, returned⟩

theorem within_and_then {allowed : Path → Prop} (firstWithin : Within allowed first)
    (secondWithin : Within allowed second) : Within allowed (first.andThen second) := by
  intro earlier write member
  cases own : (first earlier).returned with
  | false =>
      rw [and_then_stopped own] at member
      exact firstWithin earlier write member
  | true =>
      rw [and_then_went_on own] at member
      rcases List.mem_append.mp member with front | back
      · exact firstWithin earlier write front
      · exact secondWithin _ write back

theorem within_mono {allowed wider : Path → Prop} (within : Within allowed first)
    (weaker : ∀ path, allowed path → wider path) : Within wider first :=
  fun earlier write member => weaker write.path (within earlier write member)

theorem within_failed (allowed : Path → Prop) :
    Within allowed (fun _ => (failed : Attempt Path Content)) := by
  intro earlier write absent
  cases absent

theorem within_done (allowed : Path → Prop) :
    Within allowed (fun _ => (done : Attempt Path Content)) := by
  intro earlier write absent
  cases absent

end Procedures

section Plans

variable {part : Content → Content → Prop} {plan more : List (FileWrite Path Content)}
  {attempt first second : Attempt Path Content}

theorem follows_failed (plan : List (FileWrite Path Content)) : Follows part plan failed :=
  .stopped [] plan

theorem follows_and_then (follows : Follows part plan first) (behind : Follows part more second) :
    Follows part (plan ++ more) (first.andThen second) := by
  cases follows with
  | complete plan =>
      cases behind with
      | complete more => exact .complete (plan ++ more)
      | stopped written rest =>
          rw [← List.append_assoc]
          exact .stopped (plan ++ written) rest
      | cut written rest next content short =>
          have reached := Follows.cut (plan ++ written) rest next content short
          rw [List.append_assoc, List.append_assoc] at reached
          exact reached
  | stopped written rest =>
      rw [List.append_assoc]
      exact .stopped written (rest ++ more)
  | cut written rest next content short =>
      rw [List.append_assoc, List.cons_append]
      exact .cut written (rest ++ more) next content short

theorem follows_procedure {before after : Procedure Path Content}
    (follows : ∀ earlier, Follows part plan (before earlier))
    (behind : ∀ earlier, Follows part more (after earlier))
    (earlier : List (FileWrite Path Content)) :
    Follows part (plan ++ more) (before.andThen after earlier) :=
  follows_and_then (follows earlier) (behind _)

theorem follows_returned (follows : Follows part plan attempt) (returned : attempt.returned = true) :
    attempt.writes = plan := by
  cases follows with
  | complete plan => rfl
  | stopped written rest => cases returned
  | cut written rest next content short => cases returned

/-- Nothing is written to other paths than planned. -/
theorem follows_paths (follows : Follows part plan attempt) :
    ∀ write ∈ attempt.writes, ∃ planned ∈ plan, planned.path = write.path := by
  intro write member
  cases follows with
  | complete plan => exact ⟨write, member, rfl⟩
  | stopped written rest => exact ⟨write, List.mem_append_left _ member, rfl⟩
  | cut written rest next content short =>
      rcases List.mem_append.mp member with earlier | last
      · exact ⟨write, List.mem_append_left _ earlier, rfl⟩
      · rw [List.mem_singleton.mp last]
        exact ⟨next, List.mem_append_right _ List.mem_cons_self, rfl⟩

theorem follows_within {allowed : Path → Prop} {procedure : Procedure Path Content}
    (follows : ∀ earlier, Follows part plan (procedure earlier))
    (planned : ∀ write ∈ plan, allowed write.path) : Within allowed procedure := by
  intro earlier write member
  obtain ⟨own, inside, same⟩ := follows_paths (follows earlier) write member
  exact same ▸ planned own inside

/-- The last planned file is untouched, or everything before it is complete. -/
theorem follows_last {earlier : List (FileWrite Path Content)} {last : FileWrite Path Content}
    (follows : Follows part (earlier ++ [last]) attempt)
    (distinct : ∀ write ∈ earlier, write.path ≠ last.path) :
    (∀ write ∈ attempt.writes, write.path ≠ last.path) ∨
      ∃ content, attempt.writes = earlier ++ [⟨last.path, content⟩] := by
  generalize whole : earlier ++ [last] = plan at follows
  cases follows with
  | complete plan => exact Or.inr ⟨last.content, whole.symm⟩
  | stopped written rest =>
      rcases List.eq_nil_or_concat rest with rfl | ⟨others, final, rfl⟩
      · rw [List.append_nil] at whole
        exact Or.inr ⟨last.content, whole.symm⟩
      · rw [List.concat_eq_append, ← List.append_assoc] at whole
        have front := (List.append_inj' whole rfl).1
        refine Or.inl fun write member => distinct write ?_
        rw [front]
        exact List.mem_append_left _ member
  | cut written rest next content short =>
      rcases List.eq_nil_or_concat rest with rfl | ⟨others, final, rfl⟩
      · obtain ⟨front, back⟩ := List.append_inj' whole rfl
        cases back
        exact Or.inr ⟨content, by rw [front]⟩
      · rw [List.concat_eq_append, ← List.cons_append, ← List.append_assoc] at whole
        have front := (List.append_inj' whole rfl).1
        refine Or.inl fun write member => ?_
        rcases List.mem_append.mp member with present | final
        · exact distinct write (by rw [front]; exact List.mem_append_left _ present)
        · rw [List.mem_singleton.mp final]
          apply distinct next
          rw [front]
          exact List.mem_append_right _ List.mem_cons_self

end Plans

end ProtobufLkm.InterruptedWrites
