import Mathlib.Logic.Function.Basic
import Mathlib.Data.List.Basic

/-!
A program that writes whole files, as the list of its writes. Writing a path
again replaces its contents, so a file holds what the last write to it holds.
-/

namespace ProtobufLkm.FileWrites

set_option autoImplicit false

universe u v

variable {Path : Type u} {Content : Type v}

structure FileWrite (Path : Type u) (Content : Type v) where
  path : Path
  content : Content

variable [DecidableEq Path]

def apply (files : Path → Option Content) (write : FileWrite Path Content) :
    Path → Option Content :=
  Function.update files write.path (some write.content)

/-- The files after the writes. -/
def files (before : Path → Option Content) (writes : List (FileWrite Path Content)) :
    Path → Option Content :=
  writes.foldl apply before

theorem files_append (before : Path → Option Content)
    (first second : List (FileWrite Path Content)) :
    files before (first ++ second) = files (files before first) second :=
  List.foldl_append

theorem files_untouched {writes : List (FileWrite Path Content)} {path : Path}
    (other : ∀ write ∈ writes, write.path ≠ path) (before : Path → Option Content) :
    files before writes path = before path := by
  induction writes generalizing before with
  | nil => rfl
  | cons write rest ih =>
      have first := other write List.mem_cons_self
      have tail := ih (fun later member => other later (List.mem_cons_of_mem _ member))
        (apply before write)
      rw [files, List.foldl_cons]
      apply tail.trans
      exact Function.update_of_ne first.symm _ _

/-- The write holds unless a later one goes to the same path. -/
theorem files_last_write {writes : List (FileWrite Path Content)} {path : Path}
    (other : ∀ write ∈ writes, write.path ≠ path) (before : Path → Option Content)
    (earlier : List (FileWrite Path Content)) (content : Content) :
    files before (earlier ++ ⟨path, content⟩ :: writes) path = some content := by
  rw [files_append, files, List.foldl_cons]
  apply (files_untouched other _).trans
  exact Function.update_self _ _ _

/-- After the last write to a path it does not matter what was there. -/
theorem files_written {writes : List (FileWrite Path Content)} {path : Path}
    (written : ∃ write ∈ writes, write.path = path) (before other : Path → Option Content) :
    files before writes path = files other writes path := by
  induction writes generalizing before other with
  | nil =>
      obtain ⟨write, absent, _⟩ := written
      cases absent
  | cons write rest ih =>
      rw [files, List.foldl_cons, files, List.foldl_cons]
      by_cases later : ∃ next ∈ rest, next.path = path
      · exact ih later _ _
      · have untouched : ∀ next ∈ rest, next.path ≠ path :=
          fun next member same => later ⟨next, member, same⟩
        obtain ⟨own, member, same⟩ := written
        rcases List.mem_cons.mp member with here | behind
        · subst here
          have first := files_untouched untouched (apply before own)
          have second := files_untouched untouched (apply other own)
          apply first.trans
          apply Eq.trans _ second.symm
          rw [apply, apply, same, Function.update_self, Function.update_self]
        · exact absurd same (untouched own behind)

/-- Writes that go to all paths of earlier ones leave nothing of these. -/
theorem files_rewritten {first second : List (FileWrite Path Content)}
    (covers : ∀ write ∈ first, ∃ later ∈ second, later.path = write.path)
    (before : Path → Option Content) :
    files (files before first) second = files before second := by
  funext path
  by_cases written : ∃ write ∈ second, write.path = path
  · exact files_written written _ _
  · have untouched : ∀ write ∈ second, write.path ≠ path :=
      fun write member same => written ⟨write, member, same⟩
    have earlier : ∀ write ∈ first, write.path ≠ path := by
      intro write member same
      obtain ⟨later, inside, target⟩ := covers write member
      exact untouched later inside (target.trans same)
    rw [files_untouched untouched, files_untouched untouched, files_untouched earlier]

end ProtobufLkm.FileWrites
