import Mathlib.Data.List.Basic

/-!
Text cut at separators, with runs of separators taken for one: the words of a
line, or the components of a path; and the lines of a text that ends them all.
-/

namespace ProtobufLkm.SeparatedText

set_option autoImplicit false

universe u

variable {Item : Type u} (isSeparator : Item → Bool)

def pieces (text : List Item) : List (List Item) :=
  (text.splitOnP isSeparator).filter fun piece => !piece.isEmpty

@[simp] theorem pieces_nil : pieces isSeparator [] = [] := by
  simp [pieces]

variable {isSeparator}

theorem pieces_append_cons {separator : Item} (separates : isSeparator separator)
    (first second : List Item) :
    pieces isSeparator (first ++ separator :: second) =
      pieces isSeparator first ++ pieces isSeparator second := by
  rw [pieces, List.splitOnP_append_cons first second separates, List.filter_append]
  rfl

theorem pieces_cons {separator : Item} (separates : isSeparator separator) (rest : List Item) :
    pieces isSeparator (separator :: rest) = pieces isSeparator rest :=
  pieces_append_cons separates [] rest

theorem pieces_eq_singleton {piece : List Item} (nonempty : piece ≠ [])
    (whole : ∀ item ∈ piece, isSeparator item = false) : pieces isSeparator piece = [piece] := by
  rw [pieces, List.splitOnP_eq_singleton whole]
  cases piece with
  | nil => exact absurd rfl nonempty
  | cons item rest => rfl

def unlines (lines : List (List Char)) : List Char := (lines.map fun line => line ++ ['\n']).flatten

theorem split_on_unlines {lines : List (List Char)} (whole : ∀ line ∈ lines, '\n' ∉ line)
    (rest : List Char) : (unlines lines ++ rest).splitOn '\n' = lines ++ rest.splitOn '\n' := by
  induction lines with
  | nil => rfl
  | cons line others ih =>
      have tail := ih fun other member => whole other (List.mem_cons_of_mem _ member)
      have split : unlines (line :: others) ++ rest = line ++ '\n' :: (unlines others ++ rest) := by
        simp [unlines]
      rw [split, List.splitOn_append_cons_self_of_not_mem (whole line List.mem_cons_self), tail]
      rfl

end ProtobufLkm.SeparatedText
