import ProtobufLkm.SeparatedText
import Mathlib.Data.List.DropRight

/-!
Paths as Python's `os.path` computes with them on POSIX systems, and when two of
them name one file: repeated slashes count as one, and a leading slash makes a
path absolute.
-/

namespace ProtobufLkm.PosixPath

open SeparatedText

set_option autoImplicit false

abbrev Path := List Char

def join (directory name : Path) : Path :=
  if name.head? = some '/' then name
  else if directory = [] ∨ directory.getLast? = some '/' then directory ++ name
  else directory ++ '/' :: name

def basename (path : Path) : Path := path.rtakeWhile (· ≠ '/')

/-- The first part of `splitext` for a name without slashes. Dots at the start of
the name begin no extension. -/
def splitextRoot (name : Path) : Path :=
  let upToDot := name.rdropWhile (· ≠ '.')
  if upToDot.all (· = '.') then name else upToDot.dropLast

def components (path : Path) : List Path := pieces (· = '/') path

def SameFile (first second : Path) : Prop :=
  (first.head? = some '/' ↔ second.head? = some '/') ∧ components first = components second

theorem join_eq {directory name : Path} (relative : name.head? ≠ some '/')
    (nonempty : directory ≠ []) (ends : directory.getLast? ≠ some '/') :
    join directory name = directory ++ '/' :: name := by
  rw [join, if_neg relative, if_neg]
  rintro (empty | slash)
  · exact nonempty empty
  · exact ends slash

/-- The last character of a name is that of every path to it. -/
theorem join_last (directory : Path) {name : Path} (nonempty : name ≠ []) :
    (join directory name).getLast? = name.getLast? := by
  have last := List.getLast?_eq_some_getLast nonempty
  rw [join]
  split_ifs
  · rfl
  · rw [List.getLast?_append, last, Option.some_or]
  · rw [← List.singleton_append, ← List.append_assoc, List.getLast?_append, last, Option.some_or]

theorem join_head {directory name : Path} (relative : name.head? ≠ some '/')
    (nonempty : directory ≠ []) : (join directory name).head? = directory.head? := by
  rw [join, if_neg relative]
  split_ifs <;> rw [List.head?_append_of_ne_nil _ nonempty]

theorem join_cancel {directory first second : Path} (firstRelative : first.head? ≠ some '/')
    (secondRelative : second.head? ≠ some '/')
    (same : join directory first = join directory second) : first = second := by
  rw [join, join, if_neg firstRelative, if_neg secondRelative] at same
  split_ifs at same
  · exact List.append_cancel_left same
  · exact (List.cons.inj (List.append_cancel_left same)).2

theorem slash_not_mem_basename (path : Path) : '/' ∉ basename path := by
  intro member
  have kept := List.mem_rtakeWhile_imp member
  simp at kept

theorem slash_not_mem_splitext_root {name : Path} (absent : '/' ∉ name) :
    '/' ∉ splitextRoot name := by
  simp only [splitextRoot]
  split_ifs
  · exact absent
  · intro member
    apply absent
    exact (List.rdropWhile_prefix _ name).subset (List.dropLast_subset _ member)

theorem components_append_slash (first second : Path) :
    components (first ++ '/' :: second) = components first ++ components second :=
  pieces_append_cons (by simp) first second

theorem components_eq_singleton {name : Path} (nonempty : name ≠ []) (absent : '/' ∉ name) :
    components name = [name] := by
  apply pieces_eq_singleton nonempty
  intro char member
  apply decide_eq_false
  intro slash
  exact absent (slash ▸ member)

/-- Joining never changes the components, whether it adds a slash or not. -/
theorem components_join {directory name : Path} (relative : name.head? ≠ some '/') :
    components (join directory name) = components directory ++ components name := by
  rw [join, if_neg relative]
  split_ifs with slash
  · rcases slash with rfl | ends
    · rfl
    · obtain ⟨front, rfl⟩ := List.getLast?_eq_some_iff.mp ends
      rw [List.append_assoc, List.singleton_append, components_append_slash,
        components_append_slash]
      simp [components]
  · exact components_append_slash directory name

end ProtobufLkm.PosixPath
