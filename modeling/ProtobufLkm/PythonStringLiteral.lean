import Mathlib.Data.List.Infix
import Mathlib.Tactic.SplitIfs

/-!
Python's ordinary triple-quoted string literals, as the characters behind the
opening quotes are read: backslash escapes are replaced, unknown ones are left
alone, and the first three quotes in a row close the literal. A text stands for
itself exactly when it contains neither an escape nor the closing quotes.
-/

namespace ProtobufLkm.PythonStringLiteral

set_option autoImplicit false

/-- Source text has its line ends translated before anything else is read. -/
def translateNewlines : List Char → List Char
  | [] => []
  | '\r' :: '\n' :: rest => '\n' :: translateNewlines rest
  | char :: rest => (if char = '\r' then '\n' else char) :: translateNewlines rest

def closing : List Char := ['\'', '\'', '\'']

/-- The escapes of two characters that stand for one. -/
def simpleEscape : Char → Option Char
  | '\\' => some '\\'
  | '\'' => some '\''
  | '\"' => some '\"'
  | 'a' => some '\x07'
  | 'b' => some '\x08'
  | 'f' => some '\x0c'
  | 'n' => some '\n'
  | 'r' => some '\r'
  | 't' => some '\t'
  | 'v' => some '\x0b'
  | _ => none

def digitValue (char : Char) : Option Nat :=
  if '0' ≤ char ∧ char ≤ '9' then some (char.toNat - 48)
  else if 'a' ≤ char ∧ char ≤ 'f' then some (char.toNat - 87)
  else if 'A' ≤ char ∧ char ≤ 'F' then some (char.toNat - 55)
  else none

def octalDigit (char : Char) : Option Nat := (digitValue char).filter (· < 8)

/-- Up to `count` octal digits. -/
def readOctal : Nat → Nat → List Char → Nat × List Char
  | count + 1, value, char :: rest =>
      match octalDigit char with
      | some digit => readOctal count (8 * value + digit) rest
      | none => (value, char :: rest)
  | _, value, input => (value, input)

/-- Exactly `count` hexadecimal digits. -/
def readHex : Nat → Nat → List Char → Option (Nat × List Char)
  | 0, value, input => some (value, input)
  | _ + 1, _, [] => none
  | count + 1, value, char :: rest => do
      let digit ← digitValue char
      readHex count (16 * value + digit) rest

/-- There is no character for a surrogate: it cannot be written to a file. -/
def charOf (code : Nat) : Option Char := if code.isValidChar then some (Char.ofNat code) else none

/-- The characters behind the backslash that do not leave it in the string. -/
def IsEscape (char : Char) : Prop :=
  char = '\n' ∨ (simpleEscape char).isSome ∨ (octalDigit char).isSome ∨
    char ∈ ['x', 'u', 'U', 'N']

instance (char : Char) : Decidable (IsEscape char) := by
  unfold IsEscape
  infer_instance

section Literal

variable (characterNames : List Char → Option Char)

def readHexEscape (count : Nat) (input : List Char) : Option (List Char × List Char) := do
  let (code, rest) ← readHex count 0 input
  let char ← charOf code
  some ([char], rest)

def readNameEscape (input : List Char) : Option (List Char × List Char) :=
  match input with
  | '\x7b' :: afterBrace =>
      match afterBrace.dropWhile (· ≠ '\x7d') with
      | [] => none
      | _ :: rest =>
          (characterNames (afterBrace.takeWhile (· ≠ '\x7d'))).map fun char => ([char], rest)
  | _ => none

/-- What an escape stands for and what follows it, given what is behind the
backslash. An unknown one is a backslash, and its character is read again. -/
def readEscape (input : List Char) : Option (List Char × List Char) :=
  match input with
  | [] => none
  | char :: rest =>
      if char = '\n' then some ([], rest)
      else if char = 'x' then readHexEscape 2 rest
      else if char = 'u' then readHexEscape 4 rest
      else if char = 'U' then readHexEscape 8 rest
      else if char = 'N' then readNameEscape characterNames rest
      else if (octalDigit char).isSome then
        let (code, afterDigits) := readOctal 3 0 input
        (charOf code).map fun value => ([value], afterDigits)
      else
        match simpleEscape char with
        | some value => some ([value], rest)
        | none => some (['\\'], input)

/-- The value of a literal and what follows its closing quotes. Every character
or escape takes at least one character of the input. -/
def readBody : Nat → List Char → Option (List Char × List Char)
  | 0, _ => none
  | _ + 1, [] => none
  | fuel + 1, char :: rest =>
      if char = '\\' then do
        let (piece, afterEscape) ← readEscape characterNames rest
        let (value, final) ← readBody fuel afterEscape
        some (piece ++ value, final)
      else if closing <+: char :: rest then some ([], (char :: rest).drop closing.length)
      else do
        let (value, final) ← readBody fuel rest
        some (char :: value, final)

def readLiteral (input : List Char) : Option (List Char × List Char) :=
  readBody characterNames input.length input

end Literal

/-- With the closing quotes behind it, the text contains no escape and no
earlier closing quotes; in particular it ends in neither of the two. -/
structure Verbatim (body : List Char) : Prop where
  no_escape : ∀ char, IsEscape char → ¬['\\', char] <:+: body ++ ['\'']
  no_closing : ¬closing <:+: body ++ ['\'', '\'']

theorem translate_newlines_length_le (text : List Char) :
    (translateNewlines text).length ≤ text.length := by
  fun_induction translateNewlines text with
  | case1 => exact Nat.le_refl 0
  | case2 rest ih => exact (Nat.succ_le_succ ih).trans (Nat.le_succ _)
  | case3 char rest _ ih => exact Nat.succ_le_succ ih

theorem not_mem_translate_newlines (text : List Char) : '\r' ∉ translateNewlines text := by
  fun_induction translateNewlines text with
  | case1 => exact List.not_mem_nil
  | case2 rest ih => simp [ih]
  | case3 char rest _ ih =>
      by_cases carriage : char = '\r'
      · simp [carriage, ih]
      · simp [carriage, Ne.symm carriage, ih]

theorem translate_newlines_eq_self {text : List Char} (absent : '\r' ∉ text) :
    translateNewlines text = text := by
  fun_induction translateNewlines text with
  | case1 => rfl
  | case2 rest ih => simp at absent
  | case3 char rest _ ih =>
      rw [List.mem_cons, not_or] at absent
      rw [ih absent.2, if_neg (Ne.symm absent.1)]

/-- A carriage return at the end of the first text stays a line end of its own. -/
theorem translate_newlines_append (first : List Char) {char : Char} (rest : List Char)
    (other : char ≠ '\n') :
    translateNewlines (first ++ char :: rest) =
      translateNewlines first ++ translateNewlines (char :: rest) := by
  fun_induction translateNewlines first with
  | case1 => rfl
  | case2 later ih => simp [translateNewlines, ih]
  | case3 head later separate ih =>
      rw [List.cons_append, translateNewlines, ih, List.cons_append]
      intro next carriage split
      cases later with
      | nil => exact other (List.cons.inj split).1
      | cons second others =>
          exact separate others carriage (by rw [(List.cons.inj split).1])

theorem translate_newlines_append_left {first : List Char} (absent : '\r' ∉ first)
    (rest : List Char) : translateNewlines (first ++ rest) = first ++ translateNewlines rest := by
  induction first with
  | nil => rfl
  | cons char later ih =>
      rw [List.mem_cons, not_or] at absent
      rw [List.cons_append, translateNewlines, ih absent.2, if_neg (Ne.symm absent.1)]
      · rfl
      · intro next carriage
        exact absurd carriage.symm absent.1

theorem verbatim_nil : Verbatim [] := by
  constructor
  · intro char _ inside
    have length := inside.length_le
    simp at length
  · intro inside
    have length := inside.length_le
    simp [closing] at length

theorem verbatim_cons_iff (char : Char) (body : List Char) :
    Verbatim (char :: body) ↔
      (∀ next, IsEscape next → ¬['\\', next] <+: char :: (body ++ ['\''])) ∧
        ¬closing <+: char :: (body ++ ['\'', '\'']) ∧ Verbatim body := by
  constructor
  · rintro ⟨escape, close⟩
    refine ⟨?_, ?_, ?_, ?_⟩
    · intro next known before
      exact escape next known before.isInfix
    · intro before
      exact close before.isInfix
    · intro next known inside
      exact escape next known (List.infix_cons_iff.mpr (Or.inr inside))
    · intro inside
      exact close (List.infix_cons_iff.mpr (Or.inr inside))
  · rintro ⟨escape, close, tail⟩
    constructor
    · intro next known inside
      rcases List.infix_cons_iff.mp inside with before | within
      · exact escape next known before
      · exact tail.no_escape next known within
    · intro inside
      rcases List.infix_cons_iff.mp inside with before | within
      · exact close before
      · exact tail.no_closing within

theorem verbatim_backslash {body rest others : List Char} {first : Char} (verbatim : Verbatim body)
    (behind : body ++ (closing ++ rest) = first :: others) (unknown : ¬IsEscape first) :
    Verbatim ('\\' :: body) := by
  apply (verbatim_cons_iff '\\' body).mpr
  refine ⟨?_, ?_, verbatim⟩
  · intro next known before
    have inside : body ++ ['\''] <+: body ++ (closing ++ rest) := by simp [closing]
    have head := (List.cons_prefix_cons.mp before).2.trans inside
    rw [behind, List.cons_prefix_cons] at head
    exact unknown (head.1 ▸ known)
  · intro before
    simp [closing] at before

theorem verbatim_plain {char : Char} {body rest : List Char} (verbatim : Verbatim body)
    (plain : char ≠ '\\') (unclosed : ¬closing <+: char :: (body ++ (closing ++ rest))) :
    Verbatim (char :: body) := by
  apply (verbatim_cons_iff char body).mpr
  refine ⟨?_, ?_, verbatim⟩
  · intro next _ before
    exact plain (List.cons_prefix_cons.mp before).1.symm
  · intro before
    apply unclosed
    apply before.trans
    simp [closing]

theorem read_octal_length_le (count value : Nat) (input : List Char) :
    (readOctal count value input).2.length ≤ input.length := by
  induction count generalizing value input with
  | zero => exact Nat.le_refl _
  | succ count ih =>
      cases input with
      | nil => exact Nat.le_refl _
      | cons char rest =>
          rw [readOctal]
          cases octalDigit char with
          | none => exact Nat.le_refl _
          | some digit => exact (ih _ rest).trans (Nat.le_succ _)

theorem read_octal_escape_length {char : Char} (octal : (octalDigit char).isSome) (count : Nat)
    (rest : List Char) : (readOctal (count + 1) 0 (char :: rest)).2.length ≤ rest.length := by
  obtain ⟨digit, found⟩ := Option.isSome_iff_exists.mp octal
  rw [readOctal, found]
  exact read_octal_length_le count _ rest

theorem read_hex_length {count value code : Nat} {input rest : List Char}
    (read : readHex count value input = some (code, rest)) :
    rest.length + count = input.length := by
  induction count generalizing value input with
  | zero =>
      cases read
      rfl
  | succ count ih =>
      cases input with
      | nil => cases read
      | cons char afterChar =>
          rw [readHex, Option.bind_eq_bind, Option.bind_eq_some_iff] at read
          obtain ⟨digit, _, tail⟩ := read
          rw [List.length_cons, ← ih tail, Nat.add_assoc]

section Escape

variable {characterNames : List Char → Option Char} {input piece rest : List Char}

theorem read_hex_escape_length {count : Nat} (read : readHexEscape count input = some (piece, rest)) :
    piece.length = 1 ∧ rest.length + count = input.length := by
  simp only [readHexEscape, Option.bind_eq_bind, Option.bind_eq_some_iff, Option.some.injEq,
    Prod.mk.injEq, Prod.exists] at read
  obtain ⟨code, afterDigits, digits, char, _, rfl, rfl⟩ := read
  exact ⟨rfl, read_hex_length digits⟩

theorem read_name_escape_length (read : readNameEscape characterNames input = some (piece, rest)) :
    piece.length = 1 ∧ rest.length < input.length := by
  unfold readNameEscape at read
  split at read
  · rename_i afterBrace
    have shorter := (List.dropWhile_suffix (· ≠ '\x7d') : _ <:+ afterBrace).length_le
    split at read
    · cases read
    · rename_i brace afterName closed
      rw [closed] at shorter
      simp only [Option.map_eq_some_iff, Prod.mk.injEq] at read
      obtain ⟨char, _, rfl, rfl⟩ := read
      exact ⟨rfl, (Nat.lt_of_succ_le shorter).trans (Nat.lt_succ_self _)⟩
  · cases read

/-- An escape is shorter than what it stands for only when it is none. -/
theorem read_escape_cases (read : readEscape characterNames input = some (piece, rest)) :
    (piece = ['\\'] ∧ rest = input ∧ ∃ char tail, input = char :: tail ∧ ¬IsEscape char) ∨
      piece.length + rest.length ≤ input.length := by
  cases input with
  | nil => cases read
  | cons char tail =>
      rw [List.length_cons]
      simp only [readEscape] at read
      split_ifs at read with newline x u bigU name octal
      · cases read
        right
        simp
      · have length := read_hex_escape_length read
        omega
      · have length := read_hex_escape_length read
        omega
      · have length := read_hex_escape_length read
        omega
      · have length := read_name_escape_length read
        omega
      · right
        simp only [Option.map_eq_some_iff, Prod.mk.injEq] at read
        obtain ⟨value, _, rfl, rfl⟩ := read
        have digits : (readOctal 3 0 (char :: tail)).2.length ≤ tail.length :=
          read_octal_escape_length octal 2 tail
        rw [List.length_singleton]
        omega
      · cases simple : simpleEscape char with
        | some value =>
            rw [simple] at read
            cases read
            right
            simp [Nat.add_comm]
        | none =>
            rw [simple] at read
            cases read
            left
            refine ⟨rfl, rfl, char, tail, rfl, ?_⟩
            simp [IsEscape, newline, x, u, bigU, name, octal, simple]

theorem read_escape_unknown {char : Char} (unknown : ¬IsEscape char) (tail : List Char) :
    readEscape characterNames (char :: tail) = some (['\\'], char :: tail) := by
  simp only [IsEscape, List.mem_cons, List.not_mem_nil, or_false, not_or, Option.isSome_iff_ne_none,
    not_not] at unknown
  obtain ⟨newline, simple, octal, x, u, bigU, name⟩ := unknown
  simp [readEscape, newline, x, u, bigU, name, octal, simple]

end Escape

section Body

variable {characterNames : List Char → Option Char}

/-- A text without escapes and closing quotes is read as it stands. -/
theorem read_body_verbatim {body : List Char} (verbatim : Verbatim body) (rest : List Char)
    {fuel : Nat} (enough : body.length < fuel) :
    readBody characterNames fuel (body ++ (closing ++ rest)) = some (body, rest) := by
  induction body generalizing fuel with
  | nil =>
      obtain ⟨fuel, rfl⟩ := Nat.exists_eq_add_one_of_ne_zero (Nat.ne_of_gt enough)
      simp [closing, readBody]
  | cons char body ih =>
      obtain ⟨fuel, rfl⟩ := Nat.exists_eq_add_one_of_ne_zero (Nat.ne_of_gt (Nat.zero_lt_of_lt enough))
      obtain ⟨escape, close, tail⟩ := (verbatim_cons_iff char body).mp verbatim
      have next := ih tail (Nat.lt_of_succ_lt_succ enough)
      rw [List.cons_append, readBody]
      by_cases backslash : char = '\\'
      · have kept : readEscape characterNames (body ++ (closing ++ rest)) =
            some (['\\'], body ++ (closing ++ rest)) := by
          cases body with
          | nil => exact absurd (by simp [backslash]) (escape '\'' (by decide))
          | cons first others =>
              apply read_escape_unknown
              intro known
              exact escape first known (by simp [backslash])
        rw [if_pos backslash, kept]
        simp [next, backslash]
      · have open_ : ¬closing <+: char :: (body ++ (closing ++ rest)) := by
          intro before
          have longer : char :: (body ++ ['\'', '\'']) <+: char :: (body ++ (closing ++ rest)) := by
            simp [closing]
          exact close (List.prefix_of_prefix_length_le before longer (by simp [closing]))
        rw [if_neg backslash, if_neg open_]
        simp [next]

/-- A value is no longer than its source, and as long only when it is its source. -/
structure Bounded (input value rest : List Char) : Prop where
  length_le : value.length + closing.length + rest.length ≤ input.length
  source_eq : input.length ≤ value.length + closing.length + rest.length →
    input = value ++ (closing ++ rest) ∧ Verbatim value

theorem bounded_closing (rest : List Char) : Bounded (closing ++ rest) [] rest := by
  constructor
  · rw [List.length_append, List.length_nil, Nat.zero_add]
  · intro _
    exact ⟨rfl, verbatim_nil⟩

theorem bounded_escape {input piece afterEscape value rest : List Char}
    (escape : readEscape characterNames input = some (piece, afterEscape))
    (body : Bounded afterEscape value rest) : Bounded ('\\' :: input) (piece ++ value) rest := by
  have bound := body.length_le
  rcases read_escape_cases escape with ⟨rfl, rfl, first, others, split, unknown⟩ | shorter
  · constructor
    · simp only [List.length_append, List.length_cons, List.length_nil]
      omega
    · intro enough
      simp only [List.length_append, List.length_cons, List.length_nil] at enough
      obtain ⟨source, verbatim⟩ := body.source_eq (by omega)
      have kept := verbatim_backslash verbatim (source.symm.trans split) unknown
      exact ⟨by rw [source]; rfl, kept⟩
  · constructor
    · simp only [List.length_append, List.length_cons]
      omega
    · intro enough
      simp only [List.length_append, List.length_cons] at enough
      omega

theorem bounded_plain {char : Char} {tail value rest : List Char} (plain : char ≠ '\\')
    (unclosed : ¬closing <+: char :: tail) (body : Bounded tail value rest) :
    Bounded (char :: tail) (char :: value) rest := by
  have bound := body.length_le
  constructor
  · simp only [List.length_cons]
    omega
  · intro enough
    simp only [List.length_cons] at enough
    obtain ⟨source, verbatim⟩ := body.source_eq (by omega)
    rw [source] at unclosed
    exact ⟨by rw [source]; rfl, verbatim_plain verbatim plain unclosed⟩

theorem read_body_bound {fuel : Nat} {input value rest : List Char}
    (read : readBody characterNames fuel input = some (value, rest)) :
    Bounded input value rest := by
  induction fuel generalizing input value with
  | zero => cases read
  | succ fuel ih =>
      cases input with
      | nil => cases read
      | cons char tail =>
          rw [readBody] at read
          split_ifs at read with backslash close
          · simp only [Option.bind_eq_bind, Option.bind_eq_some_iff, Prod.exists, Option.some.injEq,
              Prod.mk.injEq] at read
            obtain ⟨piece, afterEscape, escape, later, final, body, rfl, rfl⟩ := read
            rw [backslash]
            exact bounded_escape escape (ih body)
          · cases read
            obtain ⟨rest, split⟩ := close
            rw [← split, List.drop_left]
            exact bounded_closing rest
          · simp only [Option.bind_eq_bind, Option.bind_eq_some_iff, Prod.exists, Option.some.injEq,
              Prod.mk.injEq] at read
            obtain ⟨later, final, body, rfl, rfl⟩ := read
            exact bounded_plain backslash close (ih body)

/-- The value of a literal is its text, up to the closing quotes behind it,
exactly when the text is verbatim. -/
theorem read_literal_verbatim_iff (body rest : List Char) :
    readLiteral characterNames (body ++ (closing ++ rest)) = some (body, rest) ↔ Verbatim body := by
  constructor
  · intro read
    apply ((read_body_bound read).source_eq _).2
    simp only [List.length_append]
    omega
  · intro verbatim
    apply read_body_verbatim verbatim
    simp only [List.length_append, closing, List.length_cons]
    omega

end Body

end ProtobufLkm.PythonStringLiteral
