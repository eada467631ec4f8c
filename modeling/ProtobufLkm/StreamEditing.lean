import ProtobufLkm.SeparatedText
import Mathlib.Tactic.SplitIfs

/-!
Substitutions of a stream editor. A fixed text is looked for from left to right
and replaced wherever it stands, or wherever it stands as a word; the search goes
on behind the match. The words of a text are its maximal runs of word characters.
-/

namespace ProtobufLkm.StreamEditing

open SeparatedText

set_option autoImplicit false

abbrev Text := List Char

/-- `wholeWord` puts a `\b` on both sides of the pattern. -/
structure Substitution where
  pattern : Text
  wholeWord : Bool
  replacement : Text

variable (isWord : Char → Bool)

def startsWord (text : Text) : Bool := text.head?.any isWord

/-- Whether the pattern is found in front of the text; `before` tells whether a
word character precedes it. -/
def Substitution.found (edit : Substitution) (before : Bool) (text : Text) : Bool :=
  edit.pattern.isPrefixOf text &&
    (!edit.wholeWord || (!before && !startsWord isWord (text.drop edit.pattern.length)))

/-- `skip` characters still belong to the last match. -/
def Substitution.scan (edit : Substitution) : Bool → Nat → Text → Text
  | _, _, [] => []
  | _, skip + 1, char :: rest => edit.scan (isWord char) skip rest
  | before, 0, char :: rest =>
      if edit.found isWord before (char :: rest) then
        edit.replacement ++ edit.scan (isWord char) (edit.pattern.length - 1) rest
      else char :: edit.scan (isWord char) 0 rest

/-- `s/pattern/replacement/g`. -/
def Substitution.apply (edit : Substitution) (text : Text) : Text := edit.scan isWord false 0 text

/-- The lines of a text with their ends. -/
def textLines : Text → List Text
  | [] => []
  | char :: rest =>
      if char = '\n' then [char] :: textLines rest
      else match textLines rest with
        | [] => [[char]]
        | line :: others => (char :: line) :: others

def occursIn (pattern : Text) : Text → Bool
  | [] => pattern.isEmpty
  | char :: rest => pattern.isPrefixOf (char :: rest) || occursIn pattern rest

/-- `/pattern/d`. -/
def deleteLines (pattern text : Text) : Text :=
  ((textLines text).filter fun line => !occursIn pattern line).flatten

def words (text : Text) : List Text := pieces (fun char => !isWord char) text

/-- The text with another word in the place of each of its words. -/
def mapWordsFrom (replace : Text → Text) : Text → Text → Text
  | run, [] => if run = [] then [] else replace run
  | run, char :: rest =>
      if isWord char then mapWordsFrom replace (run ++ [char]) rest
      else (if run = [] then [] else replace run) ++ char :: mapWordsFrom replace [] rest

def mapWords (replace : Text → Text) (text : Text) : Text := mapWordsFrom isWord replace [] text

/-- All characters belong to one word. -/
def OneWord (text : Text) : Prop := ∀ char ∈ text, isWord char = true

section Runs

variable {isWord}

theorem one_word_append {first second : Text} (firstWord : OneWord isWord first)
    (secondWord : OneWord isWord second) : OneWord isWord (first ++ second) := by
  intro char member
  rcases List.mem_append.mp member with front | back
  · exact firstWord char front
  · exact secondWord char back

/-- A text is a run of word characters, or one with a separator and a text behind. -/
theorem runs_induction (isWord : Char → Bool) {Motive : Text → Prop}
    (last : ∀ run, OneWord isWord run → Motive run)
    (next : ∀ run separator rest, OneWord isWord run → isWord separator = false →
      Motive rest → Motive (run ++ separator :: rest))
    (text : Text) : Motive text := by
  have behind : ∀ run, OneWord isWord run → Motive (run ++ text) := by
    induction text with
    | nil =>
        intro run word
        rw [List.append_nil]
        exact last run word
    | cons char rest ih =>
        intro run word
        cases own : isWord char with
        | true =>
            have longer : OneWord isWord (run ++ [char]) := by
              apply one_word_append word
              intro other member
              rw [List.mem_singleton.mp member, own]
            have reached := ih (run ++ [char]) longer
            rwa [List.append_assoc] at reached
        | false =>
            apply next run char rest word own
            exact ih [] fun other absent => by cases absent
  exact behind [] fun other absent => by cases absent

theorem map_words_from_run (replace : Text → Text) {run : Text} (word : OneWord isWord run)
    (before text : Text) :
    mapWordsFrom isWord replace before (run ++ text) =
      mapWordsFrom isWord replace (before ++ run) text := by
  induction run generalizing before with
  | nil => rw [List.nil_append, List.append_nil]
  | cons char rest ih =>
      have own := word char List.mem_cons_self
      have others : OneWord isWord rest := fun other member =>
        word other (List.mem_cons_of_mem _ member)
      rw [List.cons_append, mapWordsFrom, if_pos own, ih others, List.append_assoc]
      rfl

theorem map_words_run (replace : Text → Text) {run : Text} (word : OneWord isWord run) :
    mapWords isWord replace run = if run = [] then [] else replace run := by
  have whole := map_words_from_run replace word [] []
  rwa [List.append_nil] at whole

theorem map_words_next (replace : Text → Text) {run : Text} (word : OneWord isWord run)
    {separator : Char} (separates : isWord separator = false) (rest : Text) :
    mapWords isWord replace (run ++ separator :: rest) =
      (if run = [] then [] else replace run) ++ separator :: mapWords isWord replace rest := by
  rw [mapWords, map_words_from_run replace word, mapWordsFrom, if_neg (by rw [separates]; simp)]
  rfl

theorem words_run {run : Text} (word : OneWord isWord run) :
    words isWord run = if run = [] then [] else [run] := by
  split_ifs with empty
  · rw [empty, words, pieces_nil]
  · apply pieces_eq_singleton empty
    intro char member
    rw [word char member]
    rfl

theorem words_next {separator : Char} (separates : isWord separator = false)
    (first second : Text) :
    words isWord (first ++ separator :: second) = words isWord first ++ words isWord second :=
  pieces_append_cons (by rw [separates]; rfl) first second

theorem infix_of_mem_words {word : Text} (text : Text) :
    word ∈ words isWord text → word <:+: text := by
  induction text using runs_induction isWord with
  | last run whole =>
      rw [words_run whole]
      split_ifs
      · intro absent
        cases absent
      · intro member
        cases List.mem_singleton.mp member
        exact List.infix_refl _
  | next run separator rest whole separates ih =>
      rw [words_next separates, words_run whole]
      intro member
      rcases List.mem_append.mp member with own | later
      · split_ifs at own
        · cases own
        · rw [List.mem_singleton.mp own]
          exact (List.prefix_append run _).isInfix
      · exact (ih later).trans ((List.suffix_cons separator rest).trans
          (List.suffix_append run _)).isInfix

/-- Replacing words one after the other is replacing them by the composition. -/
theorem map_words_map_words {first second : Text → Text}
    (keeps : ∀ run, OneWord isWord run → run ≠ [] → first run ≠ [] ∧ OneWord isWord (first run))
    (text : Text) :
    mapWords isWord second (mapWords isWord first text) =
      mapWords isWord (second ∘ first) text := by
  induction text using runs_induction isWord with
  | last run word =>
      rw [map_words_run _ word, map_words_run _ word]
      split_ifs with empty
      · rfl
      · obtain ⟨nonempty, kept⟩ := keeps run word empty
        rw [map_words_run _ kept, if_neg nonempty]
        rfl
  | next run separator rest word separates ih =>
      rw [map_words_next _ word separates, map_words_next _ word separates]
      split_ifs with empty
      · have none : OneWord isWord [] := fun other absent => by cases absent
        rw [map_words_next _ none separates, ih]
        rfl
      · obtain ⟨nonempty, kept⟩ := keeps run word empty
        rw [map_words_next _ kept separates, if_neg nonempty, ih]
        rfl

theorem words_map_words {replace : Text → Text}
    (keeps : ∀ run, OneWord isWord run → run ≠ [] →
      replace run ≠ [] ∧ OneWord isWord (replace run)) (text : Text) :
    words isWord (mapWords isWord replace text) = (words isWord text).map replace := by
  induction text using runs_induction isWord with
  | last run word =>
      rw [map_words_run _ word, words_run word]
      split_ifs with empty
      · exact pieces_nil _
      · obtain ⟨nonempty, kept⟩ := keeps run word empty
        rw [words_run kept, if_neg nonempty]
        rfl
  | next run separator rest word separates ih =>
      rw [map_words_next _ word separates, words_next separates, words_next separates, ih,
        words_run word, List.map_append]
      congr 1
      split_ifs with empty
      · exact pieces_nil _
      · obtain ⟨nonempty, kept⟩ := keeps run word empty
        rw [words_run kept, if_neg nonempty]
        rfl

end Runs

section WholeWords

variable {isWord}

/-- The substitution of one word by another. -/
structure Substitution.OfWord (edit : Substitution) (isWord : Char → Bool) : Prop where
  whole : edit.wholeWord = true
  pattern_nonempty : edit.pattern ≠ []
  pattern_word : OneWord isWord edit.pattern
  replacement_nonempty : edit.replacement ≠ []
  replacement_word : OneWord isWord edit.replacement

def Substitution.replaceWord (edit : Substitution) (word : Text) : Text :=
  if word = edit.pattern then edit.replacement else word

variable {edit : Substitution} (ofWord : edit.OfWord isWord)

include ofWord

theorem replace_word_keeps (run : Text) (word : OneWord isWord run) (nonempty : run ≠ []) :
    edit.replaceWord run ≠ [] ∧ OneWord isWord (edit.replaceWord run) := by
  rw [Substitution.replaceWord]
  split_ifs
  · exact ⟨ofWord.replacement_nonempty, ofWord.replacement_word⟩
  · exact ⟨nonempty, word⟩

theorem scan_inside_word {run : Text} (word : OneWord isWord run) (rest : Text) :
    edit.scan isWord true 0 (run ++ rest) = run ++ edit.scan isWord true 0 rest := by
  induction run with
  | nil => rfl
  | cons char run ih =>
      have tail := ih fun other member => word other (List.mem_cons_of_mem _ member)
      have unfound : edit.found isWord true (char :: (run ++ rest)) = false := by
        simp [Substitution.found, ofWord.whole]
      rw [List.cons_append, Substitution.scan, unfound, if_neg Bool.false_ne_true,
        word char List.mem_cons_self, tail]
      rfl

omit ofWord in
theorem scan_skips_word {run : Text} (word : OneWord isWord run) (rest : Text) :
    edit.scan isWord true run.length (run ++ rest) = edit.scan isWord true 0 rest := by
  induction run with
  | nil => rfl
  | cons char run ih =>
      have tail := ih fun other member => word other (List.mem_cons_of_mem _ member)
      rw [List.cons_append, List.length_cons, Substitution.scan, word char List.mem_cons_self, tail]

theorem scan_separator {separator : Char} (separates : isWord separator = false) (before : Bool)
    (rest : Text) :
    edit.scan isWord before 0 (separator :: rest) = separator :: edit.scan isWord false 0 rest := by
  obtain ⟨first, others, split⟩ := List.exists_cons_of_ne_nil ofWord.pattern_nonempty
  have word : isWord first = true := ofWord.pattern_word first (split ▸ List.mem_cons_self)
  have different : first ≠ separator := by
    rintro rfl
    rw [separates] at word
    cases word
  have unfound : edit.found isWord before (separator :: rest) = false := by
    simp [Substitution.found, split, List.isPrefixOf, different]
  rw [Substitution.scan, unfound, if_neg Bool.false_ne_true, separates]

/-- At the start of a word the pattern is found only if it is that word. -/
theorem found_word_iff {run : Text} (word : OneWord isWord run) {rest : Text}
    (ends : startsWord isWord rest = false) :
    edit.found isWord false (run ++ rest) = true ↔ run = edit.pattern := by
  simp only [Substitution.found, ofWord.whole, Bool.not_true, Bool.false_or, Bool.not_false,
    Bool.true_and, Bool.and_eq_true, Bool.not_eq_true', List.isPrefixOf_iff_prefix]
  constructor
  · rintro ⟨⟨behind, split⟩, boundary⟩
    rw [← split, List.drop_left] at boundary
    rcases List.append_eq_append_iff.mp split with ⟨extra, own, rfl⟩ | ⟨extra, own, rfl⟩
    · cases extra with
      | nil => rw [own, List.append_nil]
      | cons char extra =>
          have inside : isWord char = true := word char (by rw [own]; simp)
          simp [startsWord, inside] at boundary
    · cases extra with
      | nil => rw [own, List.append_nil]
      | cons char extra =>
          have inside : isWord char = true := ofWord.pattern_word char (by rw [own]; simp)
          simp [startsWord, inside] at ends
  · rintro rfl
    exact ⟨⟨rest, rfl⟩, by rw [List.drop_left, ends]⟩

theorem scan_word {run : Text} (word : OneWord isWord run) (nonempty : run ≠ []) {rest : Text}
    (ends : startsWord isWord rest = false) :
    edit.scan isWord false 0 (run ++ rest) =
      edit.replaceWord run ++ edit.scan isWord true 0 rest := by
  obtain ⟨char, tail, rfl⟩ := List.exists_cons_of_ne_nil nonempty
  have inside : isWord char = true := word char List.mem_cons_self
  have others : OneWord isWord tail := fun other member =>
    word other (List.mem_cons_of_mem _ member)
  have found := found_word_iff ofWord word ends
  rw [List.cons_append] at found ⊢
  rw [Substitution.scan, Substitution.replaceWord, inside]
  by_cases same : char :: tail = edit.pattern
  · have length : edit.pattern.length - 1 = tail.length := by
      rw [← same, List.length_cons, Nat.add_sub_cancel]
    rw [if_pos (found.mpr same), if_pos same, length, scan_skips_word others]
  · rw [if_neg (found.not.mpr same), if_neg same, scan_inside_word ofWord others]
    rfl

/-- The editor replaces exactly the occurrences of the pattern as a word. -/
theorem apply_eq_map_words (text : Text) :
    edit.apply isWord text = mapWords isWord edit.replaceWord text := by
  induction text using runs_induction isWord with
  | last run word =>
      rw [map_words_run _ word]
      split_ifs with empty
      · rw [empty]
        rfl
      · have whole := scan_word ofWord word empty (rfl : startsWord isWord [] = false)
        rw [List.append_nil] at whole
        rw [Substitution.apply, whole]
        exact List.append_nil _
  | next run separator rest word separates ih =>
      have ends : startsWord isWord (separator :: rest) = false := separates
      rw [map_words_next _ word separates, ← ih, Substitution.apply]
      split_ifs with empty
      · rw [empty]
        exact scan_separator ofWord separates false rest
      · rw [scan_word ofWord word empty ends, scan_separator ofWord separates]
        rfl

end WholeWords

section Literals

variable {isWord} {edit : Substitution} {word : Text}

/-- The substitution of one text by another, both of which end a word. -/
structure Substitution.Literal (edit : Substitution) (isWord : Char → Bool)
    (patternFront replacementFront : Text) : Prop where
  anywhere : edit.wholeWord = false
  pattern_ends : ∃ separator, isWord separator = false ∧
    edit.pattern = patternFront ++ [separator]
  replacement_ends : ∃ separator, isWord separator = false ∧
    edit.replacement = replacementFront ++ [separator]

theorem scan_any_before (anywhere : edit.wholeWord = false) (before other : Bool) (skip : Nat)
    (text : Text) : edit.scan isWord before skip text = edit.scan isWord other skip text := by
  cases text with
  | nil => rw [Substitution.scan, Substitution.scan]
  | cons char rest =>
      cases skip with
      | zero => simp only [Substitution.scan, Substitution.found, anywhere, Bool.not_false,
          Bool.true_or]
      | succ skip => rw [Substitution.scan, Substitution.scan]

theorem scan_skips (anywhere : edit.wholeWord = false) (before : Bool) (first rest : Text) :
    edit.scan isWord before first.length (first ++ rest) = edit.scan isWord false 0 rest := by
  induction first generalizing before with
  | nil => exact scan_any_before anywhere before false 0 rest
  | cons char first ih => exact ih (isWord char)

theorem found_iff (anywhere : edit.wholeWord = false) (before : Bool) (text : Text) :
    edit.found isWord before text = true ↔ edit.pattern <+: text := by
  simp [Substitution.found, anywhere]

/-- Behind a match the search starts anew. -/
theorem scan_match (anywhere : edit.wholeWord = false) (nonempty : edit.pattern ≠ [])
    (before : Bool) (rest : Text) :
    edit.scan isWord before 0 (edit.pattern ++ rest) =
      edit.replacement ++ edit.scan isWord false 0 rest := by
  cases split : edit.pattern with
  | nil => exact absurd split nonempty
  | cons first tail =>
      have found : edit.found isWord before (first :: (tail ++ rest)) = true := by
        rw [found_iff anywhere, split]
        exact List.prefix_append (first :: tail) rest
      rw [List.cons_append, Substitution.scan, found, if_pos rfl, split, List.length_cons,
        Nat.add_sub_cancel, scan_skips anywhere]

/-- A replacement that begins with a separator makes only the words inside it. -/
theorem made_behind_separator {separator other : Char} {inside replaced : Text}
    (separates : isWord separator = false) (otherSeparates : isWord other = false)
    (absent : ¬word <:+: inside) (run : Text) :
    word ∈ words isWord (run ++ separator :: inside) →
      word ∈ words isWord (run ++ other :: replaced) := by
  rw [words_next separates, words_next otherSeparates]
  intro member
  rcases List.mem_append.mp member with own | new
  · exact List.mem_append_left _ own
  · exact absurd (infix_of_mem_words inside new) absent

/-- A replacement that completes a word makes that word only. -/
theorem not_made_by_word {replacement : Text} (whole : OneWord isWord replacement)
    (nonempty : replacement ≠ []) (last : word.getLast? ≠ replacement.getLast?) {run : Text}
    (runWord : OneWord isWord run) : word ∉ words isWord (run ++ replacement) := by
  rw [words_run (one_word_append runWord whole), if_neg (by simp [nonempty]), List.mem_singleton]
  rintro rfl
  apply last
  rw [List.getLast?_append_of_ne_nil _ nonempty]

/-- Such a substitution leaves no word that its replacement does not make, behind
whatever part of a word it follows. -/
theorem mem_words_of_literal {patternFront replacementFront : Text}
    (literal : edit.Literal isWord patternFront replacementFront)
    (made : ∀ run, OneWord isWord run → word ∈ words isWord (run ++ replacementFront) →
      word ∈ words isWord (run ++ patternFront))
    (text : Text) : word ∈ words isWord (edit.apply isWord text) → word ∈ words isWord text := by
  obtain ⟨patternEnd, patternSeparates, pattern⟩ := literal.pattern_ends
  obtain ⟨replacementEnd, replacementSeparates, replacement⟩ := literal.replacement_ends
  have nonempty : edit.pattern ≠ [] := by simp [pattern]
  -- The words of the text behind the run of word characters that precedes it.
  have behind : ∀ run before, OneWord isWord run →
      word ∈ words isWord (run ++ edit.scan isWord before 0 text) →
        word ∈ words isWord (run ++ text) := by
    induction size : text.length using Nat.strongRecOn generalizing text with
    | ind length ih =>
        intro run before runWord member
        have noRun : OneWord isWord [] := fun other absent => by cases absent
        by_cases found : edit.pattern <+: text
        · obtain ⟨rest, rfl⟩ := found
          rw [scan_match literal.anywhere nonempty, replacement, List.append_assoc,
            ← List.append_assoc, List.singleton_append, words_next replacementSeparates] at member
          rw [pattern, List.append_assoc, ← List.append_assoc, List.singleton_append,
            words_next patternSeparates]
          have shorter : rest.length < length := by
            rw [← size, List.length_append, pattern, List.length_append]
            simp
          rcases List.mem_append.mp member with own | later
          · exact List.mem_append_left _ (made run runWord own)
          · exact List.mem_append_right _ (ih rest.length shorter rest rfl [] false noRun later)
        · cases text with
          | nil => exact member
          | cons char rest =>
              have unfound : edit.found isWord before (char :: rest) = false := by
                rw [← Bool.not_eq_true, found_iff literal.anywhere]
                exact found
              have shorter : rest.length < length := by rw [← size, List.length_cons]; exact Nat.lt_succ_self _
              rw [Substitution.scan, unfound, if_neg Bool.false_ne_true] at member
              cases own : isWord char with
              | true =>
                  have longer : OneWord isWord (run ++ [char]) := by
                    apply one_word_append runWord
                    intro other single
                    rw [List.mem_singleton.mp single, own]
                  have reached := ih rest.length shorter rest rfl (run ++ [char]) (isWord char) longer
                  rw [List.append_assoc, List.append_assoc] at reached
                  exact reached member
              | false =>
                  rw [words_next own] at member ⊢
                  rcases List.mem_append.mp member with earlier | later
                  · exact List.mem_append_left _ earlier
                  · apply List.mem_append_right
                    exact ih rest.length shorter rest rfl [] (isWord char) noRun later
  exact behind [] false fun other absent => by cases absent

end Literals

section Lines

def isInline (char : Char) : Bool := char ≠ '\n'

theorem text_lines_run {run : Text} (line : OneWord isInline run) :
    textLines run = if run = [] then [] else [run] := by
  induction run with
  | nil => rfl
  | cons char rest ih =>
      have own : char ≠ '\n' := of_decide_eq_true (line char List.mem_cons_self)
      have tail := ih fun other member => line other (List.mem_cons_of_mem _ member)
      rw [textLines, if_neg own, tail, if_neg (List.cons_ne_nil _ _)]
      cases rest <;> rfl

theorem text_lines_next {run : Text} (line : OneWord isInline run) (rest : Text) :
    textLines (run ++ '\n' :: rest) = (run ++ ['\n']) :: textLines rest := by
  induction run with
  | nil => rfl
  | cons char run ih =>
      have own : char ≠ '\n' := of_decide_eq_true (line char List.mem_cons_self)
      have tail := ih fun other member => line other (List.mem_cons_of_mem _ member)
      rw [List.cons_append, textLines, if_neg own, tail]
      rfl

variable {isWord}

/-- Deleting lines only takes words away. -/
theorem mem_words_of_delete (ends : isWord '\n' = false) (pattern : Text) {word : Text}
    (text : Text) :
    word ∈ words isWord (deleteLines pattern text) → word ∈ words isWord text := by
  induction text using runs_induction isInline with
  | last run line =>
      rw [deleteLines, text_lines_run line]
      split_ifs with empty
      · rw [empty]
        exact id
      · cases deleted : occursIn pattern run with
        | true => simp [deleted, words]
        | false => simp [deleted]
  | next run separator rest line separates ih =>
      have newline : separator = '\n' := not_not.mp (of_decide_eq_false separates)
      subst newline
      intro member
      rw [deleteLines, text_lines_next line, List.filter_cons] at member
      rw [words_next ends]
      split_ifs at member
      · rw [List.flatten_cons, List.append_assoc, List.singleton_append, words_next ends] at member
        rcases List.mem_append.mp member with own | later
        · exact List.mem_append_left _ own
        · exact List.mem_append_right _ (ih later)
      · exact List.mem_append_right _ (ih member)

variable {edit : Substitution}

theorem is_prefix_of_line {pattern : Text} (inline : '\n' ∉ pattern) (line rest : Text) :
    pattern <+: line ++ '\n' :: rest ↔ pattern <+: line := by
  constructor
  · rintro ⟨others, split⟩
    rcases List.append_eq_append_iff.mp split with ⟨extra, rfl, _⟩ | ⟨extra, rfl, behind⟩
    · exact List.prefix_append pattern extra
    · cases extra with
      | nil => exact ⟨[], by rw [List.append_nil, List.append_nil]⟩
      | cons char extra =>
          cases behind
          exact absurd (by simp) inline
  · exact fun found => found.trans (List.prefix_append _ _)

theorem starts_word_line (ends : isWord '\n' = false) (line rest : Text) :
    startsWord isWord (line ++ '\n' :: rest) = startsWord isWord line := by
  cases line with
  | nil => exact ends
  | cons char line => rfl

theorem found_line (ends : isWord '\n' = false) (inline : '\n' ∉ edit.pattern) (before : Bool)
    (line rest : Text) :
    edit.found isWord before (line ++ '\n' :: rest) = edit.found isWord before line := by
  by_cases found : edit.pattern <+: line
  · have whole := (is_prefix_of_line inline line rest).mpr found
    rw [Substitution.found, Substitution.found, List.drop_append_of_le_length found.length_le,
      starts_word_line ends, List.isPrefixOf_iff_prefix.mpr whole,
      List.isPrefixOf_iff_prefix.mpr found]
  · have nowhere := (is_prefix_of_line inline line rest).not.mpr found
    rw [← List.isPrefixOf_iff_prefix, Bool.not_eq_true] at found nowhere
    rw [Substitution.found, Substitution.found, found, nowhere, Bool.false_and, Bool.false_and]

theorem scan_line (ends : isWord '\n' = false) (nonempty : edit.pattern ≠ [])
    (inline : '\n' ∉ edit.pattern) {skip : Nat} {line : Text} (inside : skip ≤ line.length)
    (before : Bool) (rest : Text) :
    edit.scan isWord before skip (line ++ '\n' :: rest) =
      edit.scan isWord before skip line ++ '\n' :: edit.scan isWord false 0 rest := by
  induction line generalizing skip before with
  | nil =>
      have none : skip = 0 := Nat.le_zero.mp inside
      have unfound : edit.found isWord before ([] ++ '\n' :: rest) = false := by
        rw [found_line ends inline, Substitution.found]
        cases pattern : edit.pattern with
        | nil => exact absurd pattern nonempty
        | cons char others => rfl
      rw [List.nil_append] at unfound
      rw [none, List.nil_append, Substitution.scan, Substitution.scan, unfound,
        if_neg Bool.false_ne_true, ends, List.nil_append]
  | cons char line ih =>
      cases skip with
      | succ skip =>
          rw [List.cons_append, Substitution.scan, Substitution.scan]
          exact ih (Nat.le_of_succ_le_succ inside) (isWord char)
      | zero =>
          have same := found_line ends inline before (char :: line) rest
          rw [List.cons_append] at same
          rw [List.cons_append, Substitution.scan, Substitution.scan, same]
          split_ifs with found
          · have fits : edit.pattern.length - 1 ≤ line.length := by
              rw [Substitution.found, Bool.and_eq_true, List.isPrefixOf_iff_prefix] at found
              exact Nat.sub_le_iff_le_add.mpr found.1.length_le
            rw [ih fits, List.append_assoc]
          · rw [ih (Nat.zero_le _)]
            rfl

/-- Substituting in a text is substituting in its lines. -/
theorem apply_lines (ends : isWord '\n' = false) (nonempty : edit.pattern ≠ [])
    (inline : '\n' ∉ edit.pattern) (text : Text) :
    edit.apply isWord text = ((textLines text).map (edit.apply isWord)).flatten := by
  induction text using runs_induction isInline with
  | last run line =>
      rw [text_lines_run line]
      split_ifs with empty
      · rw [empty]
        rfl
      · simp
  | next run separator rest line separates ih =>
      have newline : separator = '\n' := not_not.mp (of_decide_eq_false separates)
      subst newline
      have whole := scan_line ends nonempty inline (Nat.zero_le run.length) false rest
      have single := scan_line ends nonempty inline (Nat.zero_le run.length) false []
      rw [text_lines_next line, List.map_cons, List.flatten_cons, ← ih]
      rw [Substitution.apply, whole, Substitution.apply, single, List.append_assoc]
      rfl

end Lines

end ProtobufLkm.StreamEditing
