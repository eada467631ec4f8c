import ProtobufLkm.SeparatedText

/-!
How `make` reads an assignment that contains nothing it interprets: lines that
end in a backslash are continued, the variable and `:=` open the line, and the
value is a list of words. Names and values with special characters are refused.
-/

namespace ProtobufLkm.MakefileText

open SeparatedText

set_option autoImplicit false

abbrev Line := List Char

def isWhite (char : Char) : Bool := char ∈ [' ', '\t', '\n', '\r', '\x0b', '\x0c']

/-- The characters of a variable name: what ends a word, an assignment or a
target, starts a comment or a reference is none of them. -/
def isNameChar (char : Char) : Bool := !isWhite char && char ∉ [':', '=', '#', '$']

/-- Each continued line is joined with the next one by a space. -/
def logicalLines : List Line → List Line
  | [] => []
  | line :: rest =>
      if line.getLast? = some '\\' then
        match logicalLines rest with
        | [] => [line.dropLast]
        | next :: others => (line.dropLast ++ ' ' :: next) :: others
      else line :: logicalLines rest

def assignedValue (target : List Char) (line : Line) : Option (List Char) :=
  (line.dropPrefix? target).bind fun rest => (rest.dropWhile isWhite).dropPrefix? [':', '=']

def assignedWords (target : List Char) (text : List Char) : Option (List (List Char)) :=
  if target.all isNameChar then
    ((logicalLines (text.splitOn '\n')).findSome? (assignedValue target)).bind fun value =>
      if '#' ∈ value ∨ '$' ∈ value then none else some (pieces isWhite value)
  else none

theorem logical_lines_append {before : List Line}
    (complete : ∀ line ∈ before, line.getLast? ≠ some '\\') (rest : List Line) :
    logicalLines (before ++ rest) = before ++ logicalLines rest := by
  induction before with
  | nil => rfl
  | cons line later ih =>
      have tail := ih fun other member => complete other (List.mem_cons_of_mem _ member)
      rw [List.cons_append, logicalLines, if_neg (complete line List.mem_cons_self), tail]
      rfl

theorem logical_lines_continued {line next : Line} {rest others : List Line}
    (later : logicalLines rest = next :: others) :
    logicalLines ((line ++ ['\\']) :: rest) = (line ++ ' ' :: next) :: others := by
  rw [logicalLines, if_pos List.getLast?_concat, later, List.dropLast_concat]

theorem logical_lines_complete {line : Line} (complete : line.getLast? ≠ some '\\')
    (rest : List Line) : logicalLines (line :: rest) = line :: logicalLines rest := by
  rw [logicalLines, if_neg complete]

/-- Any number of continued lines and the one that ends them. -/
theorem logical_lines_joined (fronts : List Line) {last : Line}
    (complete : last.getLast? ≠ some '\\') (rest : List Line) :
    logicalLines (fronts.map (fun front => front ++ ['\\']) ++ last :: rest) =
      fronts.foldr (fun front next => front ++ ' ' :: next) last :: logicalLines rest := by
  induction fronts with
  | nil => exact logical_lines_complete complete rest
  | cons front later ih => exact logical_lines_continued ih

/-- A line whose first name lacks a character of the variable assigns something else. -/
theorem assigned_value_eq_none {target : List Char} (names : target.all isNameChar)
    {char : Char} (member : char ∈ target) {line : Line}
    (absent : char ∉ line.takeWhile isNameChar) : assignedValue target line = none := by
  have stripped : line.dropPrefix? target = none := by
    rw [Option.eq_none_iff_forall_ne_some]
    intro rest found
    obtain ⟨front, rfl, same⟩ := List.dropPrefix?_eq_some_iff.mp found
    rw [eq_of_beq same, List.takeWhile_append_of_pos (List.all_eq_true.mp names)] at absent
    exact absent (List.mem_append_left _ member)
  rw [assignedValue, stripped, Option.bind_none]

theorem assigned_value_eq_some (target : List Char) {blanks : List Char}
    (white : ∀ char ∈ blanks, isWhite char) (value : List Char) :
    assignedValue target (target ++ (blanks ++ (':' :: '=' :: value))) = some value := by
  rw [assignedValue, List.dropPrefix?_append_of_beq _ (beq_self_eq_true target),
    Option.bind_some, List.dropWhile_append_of_pos white, List.dropWhile_cons_of_neg (by decide)]
  exact List.dropPrefix?_append_of_beq value (beq_self_eq_true [':', '='])

end ProtobufLkm.MakefileText
