import ProtobufLkm.PythonStringLiteral

/-!
# The C runtime inside the Python package

`generate_files.sh` pastes the rewritten `pbtools.c` and `pbtools.h` between the
triple quotes of two Python modules and copies them to the examples. The
generated functions write what the literals evaluate to. The rewritten files
come from the pbtools submodule and are arbitrary texts here.
-/

namespace ProtobufLkm.PbtoolsEmbedding

open PythonStringLiteral

set_option autoImplicit false

/-- A composed module: the assignment up to its opening quotes, and the function
behind the closing ones. -/
structure Embedding where
  opening : String
  function : String

def generatePbtoolsC : Embedding where
  opening := "import os\n\nPBTOOLS_C_FMT = '''"
  function := "\n\n\ndef generate_pbtools_c(output_directory):\n\n    filename = " ++
    "os.path.join(output_directory, 'protobuf_lkm.c')\n\n    with open(filename, 'w') as fout:\n" ++
    "        fout.write(PBTOOLS_C_FMT)\n\n"

def generatePbtoolsH : Embedding where
  opening := "import os\n\nPBTOOLS_H_FMT = '''"
  function := "\n\n\ndef generate_pbtools_h(output_directory):\n\n    filename = " ++
    "os.path.join(output_directory, 'protobuf_lkm.h')\n\n    with open(filename, 'w') as f:\n" ++
    "        f.write(PBTOOLS_H_FMT)\n\n"

structure ScriptOutput where
  pyModule : List Char
  exampleCopy : List Char

/-- What the script makes of a rewritten file in `.tmp`. -/
def generateFilesSh (embedding : Embedding) (text : List Char) : ScriptOutput where
  pyModule := (embedding.opening.toList ++ ['\n']) ++
    (text ++ (closing ++ embedding.function.toList))
  exampleCopy := text

/-- What the generated function writes once the module is imported. There is no
module with a null byte, and behind another literal stands another program than
the one the script wrote. -/
def writtenFile (characterNames : List Char → Option Char) (embedding : Embedding)
    (source : List Char) : Option (List Char) :=
  if '\x00' ∈ source then none
  else do
    let literal ← (translateNewlines source).dropPrefix? embedding.opening.toList
    let (value, behind) ← readLiteral characterNames literal
    if behind = embedding.function.toList then some value else none

/-- Neither line ends nor characters of the text mean something else in Python. -/
structure Embeddable (text : List Char) : Prop where
  no_return : '\r' ∉ text
  no_null : '\x00' ∉ text
  verbatim : Verbatim text

/-- The script's own parts are read as they stand. -/
def Embedding.Plain (embedding : Embedding) : Prop :=
  ∀ char ∈ ['\r', '\x00'], char ∉ embedding.opening.toList ∧ char ∉ embedding.function.toList

def isPlain (char : Char) : Bool := char ∉ ['\r', '\x00']

theorem plain_of_all {embedding : Embedding} (opening : embedding.opening.toList.all isPlain)
    (function : embedding.function.toList.all isPlain) : embedding.Plain := by
  have absent : ∀ text : List Char, text.all isPlain → ∀ char ∈ ['\r', '\x00'], char ∉ text := by
    intro text all char special member
    have own := List.all_eq_true.mp all char member
    rw [isPlain, decide_eq_true_eq] at own
    exact own special
  intro char special
  exact ⟨absent _ opening char special, absent _ function char special⟩

/-- Literal by literal: evaluation of one takes quadratic time. -/
theorem generate_pbtools_plain : generatePbtoolsC.Plain ∧ generatePbtoolsH.Plain := by
  constructor
  · apply plain_of_all (by decide +kernel)
    simp only [generatePbtoolsC, String.toList_append, List.all_append, Bool.and_eq_true]
    refine ⟨⟨?_, ?_⟩, ?_⟩ <;> decide +kernel
  · apply plain_of_all (by decide +kernel)
    simp only [generatePbtoolsH, String.toList_append, List.all_append, Bool.and_eq_true]
    refine ⟨⟨?_, ?_⟩, ?_⟩ <;> decide +kernel

theorem verbatim_newline_iff (text : List Char) : Verbatim ('\n' :: text) ↔ Verbatim text := by
  rw [verbatim_cons_iff]
  simp [closing]

section Exact

variable {characterNames : List Char → Option Char} {embedding : Embedding}
  (plain : embedding.Plain)

include plain

theorem null_mem_py_module (text : List Char) :
    '\x00' ∈ (generateFilesSh embedding text).pyModule ↔ '\x00' ∈ text := by
  have own := plain '\x00' (by simp)
  simp [generateFilesSh, closing, own]

theorem translate_py_module (text : List Char) :
    translateNewlines (generateFilesSh embedding text).pyModule =
      embedding.opening.toList ++
        ('\n' :: translateNewlines text ++ (closing ++ embedding.function.toList)) := by
  have own := plain '\r' (by simp)
  have before : '\r' ∉ embedding.opening.toList ++ ['\n'] := by simp [own]
  have behind : '\r' ∉ closing ++ embedding.function.toList := by simp [closing, own]
  have split : translateNewlines (text ++ (closing ++ embedding.function.toList)) =
      translateNewlines text ++ translateNewlines (closing ++ embedding.function.toList) :=
    translate_newlines_append text _ (by decide : '\'' ≠ '\n')
  rw [generateFilesSh, translate_newlines_append_left before, split,
    translate_newlines_eq_self behind, List.append_assoc]
  rfl

theorem written_file_eq (text : List Char) :
    writtenFile characterNames embedding (generateFilesSh embedding text).pyModule =
      if '\x00' ∈ text then none
      else (readLiteral characterNames
        ('\n' :: translateNewlines text ++ (closing ++ embedding.function.toList))).bind
          fun (value, behind) =>
            if behind = embedding.function.toList then some value else none := by
  rw [writtenFile, translate_py_module plain, List.dropPrefix?_append_of_beq _ (by simp)]
  simp only [null_mem_py_module plain, Option.bind_eq_bind, Option.bind_some]

/-- The file written is the text behind one newline exactly when the text is
embeddable. -/
theorem written_file_exact_iff (text : List Char) :
    writtenFile characterNames embedding (generateFilesSh embedding text).pyModule =
        some ('\n' :: (generateFilesSh embedding text).exampleCopy) ↔ Embeddable text := by
  rw [written_file_eq plain]
  constructor
  · intro written
    split_ifs at written with null
    simp only [Option.bind_eq_some_iff, Prod.exists] at written
    obtain ⟨value, behind, read, same⟩ := written
    split_ifs at same with function
    rw [Option.some.injEq] at same
    subst function same
    -- The value is as long as the text, so nothing was shortened on the way.
    have shorter := translate_newlines_length_le text
    obtain ⟨source, verbatim⟩ := (read_body_bound read).source_eq (by
      simp only [List.length_append, List.length_cons, generateFilesSh]
      omega)
    have kept : translateNewlines text = text :=
      (List.cons.inj (List.append_cancel_right source)).2
    refine ⟨?_, null, (verbatim_newline_iff text).mp verbatim⟩
    have absent := not_mem_translate_newlines text
    rwa [kept] at absent
  · rintro ⟨noReturn, noNull, verbatim⟩
    rw [if_neg noNull, translate_newlines_eq_self noReturn,
      (read_literal_verbatim_iff ('\n' :: text) _).mpr ((verbatim_newline_iff text).mpr verbatim)]
    simp [generateFilesSh]

end Exact

/-- Both generated files are the script's text behind one newline, as its copies
in the examples are without, exactly for the embeddable texts. -/
theorem embedded_texts_exact_iff (characterNames : List Char → Option Char) (text : List Char) :
    (writtenFile characterNames generatePbtoolsC (generateFilesSh generatePbtoolsC text).pyModule =
        some ('\n' :: (generateFilesSh generatePbtoolsC text).exampleCopy) ↔ Embeddable text) ∧
    (writtenFile characterNames generatePbtoolsH (generateFilesSh generatePbtoolsH text).pyModule =
        some ('\n' :: (generateFilesSh generatePbtoolsH text).exampleCopy) ↔ Embeddable text) :=
  ⟨written_file_exact_iff generate_pbtools_plain.1 text,
    written_file_exact_iff generate_pbtools_plain.2 text⟩

/-- A C line that ends a string with a null character. -/
def terminatingLine : List Char := "text_p[size] = '\\0';\n".toList

/-- Its escape is one for Python too: the file gets the null character itself. -/
theorem escape_replaced_in_copy :
    writtenFile (fun _ => none) generatePbtoolsC
        (generateFilesSh generatePbtoolsC terminatingLine).pyModule =
      some "\ntext_p[size] = '\x00';\n".toList ∧
    writtenFile (fun _ => none) generatePbtoolsC
        (generateFilesSh generatePbtoolsC terminatingLine).pyModule ≠
      some ('\n' :: (generateFilesSh generatePbtoolsC terminatingLine).exampleCopy) := by
  decide +kernel

end ProtobufLkm.PbtoolsEmbedding
