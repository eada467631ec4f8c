import ProtobufLkm.GenerateFilesFaults
import ProtobufLkm.PbtoolsEmbedding
import ProtobufLkm.StreamEditing

/-!
# How `generate_files.sh` rewrites the C runtime

Kernel code does not compute with floating point. The script turns the words
`float` and `double` of `pbtools.c` and `pbtools.h` into integer types, and the
includes into those of the kernel, before the files are put into the generator.
Which characters beyond ASCII belong to words depends on the locale of `sed`.
-/

namespace ProtobufLkm.PbtoolsRewriting

open SeparatedText StreamEditing PythonStringLiteral PbtoolsEmbedding

set_option autoImplicit false

structure Locale where
  isWord : Char → Bool
  ascii : ∀ char : Char, char.toNat < 128 → isWord char = (char.isAlphanum || char == '_')

section Script

def wordEdit (pattern replacement : String) : Substitution where
  pattern := pattern.toList
  wholeWord := true
  replacement := replacement.toList

def textEdit (pattern replacement : String) : Substitution where
  pattern := pattern.toList
  wholeWord := false
  replacement := replacement.toList

def floatToUint32 : Substitution := wordEdit "float" "uint32_t"

def doubleToUint64 : Substitution := wordEdit "double" "uint64_t"

def libraryHeader : Substitution := textEdit "\"pbtools.h\"" "\"protobuf_lkm.h\""

def alignofBuiltin : Substitution := textEdit "alignof(" "__alignof__("

def stdintHeader : Substitution := textEdit "<stdint.h>" "<linux/init.h>"

def stdboolHeader : Substitution := textEdit "<stdbool.h>" "<linux/kernel.h>"

def stringHeader : Substitution := textEdit "<string.h>" "<linux/module.h>"

variable (locale : Locale)

def rewriteTypes (text : Text) : Text :=
  doubleToUint64.apply locale.isWord (floatToUint32.apply locale.isWord text)

def rewritePbtoolsC (text : Text) : Text :=
  let text := rewriteTypes locale text
  let text := libraryHeader.apply locale.isWord text
  let text := deleteLines "#include <limits.h>".toList text
  let text := deleteLines "#include <stdalign.h>".toList text
  alignofBuiltin.apply locale.isWord text

def rewritePbtoolsH (text : Text) : Text :=
  let text := rewriteTypes locale text
  let text := stdintHeader.apply locale.isWord text
  let text := stdboolHeader.apply locale.isWord text
  stringHeader.apply locale.isWord text

end Script

section Types

variable (locale : Locale)

theorem one_word_of_ascii {text : Text}
    (ascii : text.all (fun char => decide (char.toNat < 128) && (char.isAlphanum || char == '_'))) :
    OneWord locale.isWord text := by
  intro char member
  have own := List.all_eq_true.mp ascii char member
  rw [Bool.and_eq_true, decide_eq_true_eq] at own
  rw [locale.ascii char own.1, own.2]

theorem separates_of_ascii {char : Char} (small : char.toNat < 128)
    (special : (char.isAlphanum || char == '_') = false) : locale.isWord char = false := by
  rw [locale.ascii char small, special]

theorem float_of_word : floatToUint32.OfWord locale.isWord where
  whole := rfl
  pattern_nonempty := by decide
  pattern_word := one_word_of_ascii locale (by decide)
  replacement_nonempty := by decide
  replacement_word := one_word_of_ascii locale (by decide)

theorem double_of_word : doubleToUint64.OfWord locale.isWord where
  whole := rfl
  pattern_nonempty := by decide
  pattern_word := one_word_of_ascii locale (by decide)
  replacement_nonempty := by decide
  replacement_word := one_word_of_ascii locale (by decide)

/-- The integer type of the same size for a floating-point type. -/
def kernelType (word : Text) : Text :=
  if word = "float".toList then "uint32_t".toList
  else if word = "double".toList then "uint64_t".toList
  else word

theorem replace_words_eq : doubleToUint64.replaceWord ∘ floatToUint32.replaceWord = kernelType := by
  funext word
  rw [Function.comp_apply, Substitution.replaceWord, Substitution.replaceWord, kernelType]
  by_cases isFloat : word = "float".toList
  · subst isFloat
    decide
  · have kept : word ≠ floatToUint32.pattern := isFloat
    rw [if_neg kept, if_neg isFloat]
    rfl

theorem rewrite_types_words (text : Text) :
    rewriteTypes locale text =
      mapWords locale.isWord (doubleToUint64.replaceWord ∘ floatToUint32.replaceWord) text := by
  rw [rewriteTypes, apply_eq_map_words (float_of_word locale),
    apply_eq_map_words (double_of_word locale),
    map_words_map_words (replace_word_keeps (float_of_word locale))]

/-- Every word `float` and `double` becomes its integer type, and no other
character of the text changes. -/
theorem rewrite_types_eq (text : Text) :
    rewriteTypes locale text = mapWords locale.isWord kernelType text := by
  rw [rewrite_types_words, replace_words_eq]

end Types

section Absence

variable (locale : Locale)

def floatingPoint : List Text := ["float".toList, "double".toList]

def FloatFree (text : Text) : Prop := ∀ word ∈ floatingPoint, word ∉ words locale.isWord text

theorem kernel_type_keeps (run : Text) (word : OneWord locale.isWord run) (nonempty : run ≠ []) :
    kernelType run ≠ [] ∧ OneWord locale.isWord (kernelType run) := by
  rw [← replace_words_eq]
  obtain ⟨kept, single⟩ := replace_word_keeps (float_of_word locale) run word nonempty
  exact replace_word_keeps (double_of_word locale) _ single kept

theorem kernel_type_not_floating (word : Text) : kernelType word ∉ floatingPoint := by
  rw [kernelType]
  split_ifs with isFloat isDouble
  · decide
  · decide
  · simp only [floatingPoint, List.mem_cons, List.not_mem_nil, or_false, not_or]
    exact ⟨isFloat, isDouble⟩

theorem rewrite_types_float_free (text : Text) : FloatFree locale (rewriteTypes locale text) := by
  intro word floating member
  rw [rewrite_types_words, replace_words_eq, words_map_words (kernel_type_keeps locale)] at member
  obtain ⟨own, _, rfl⟩ := List.mem_map.mp member
  exact kernel_type_not_floating own floating

theorem not_infix_of_not_any {inside : Text} (absent : floatingPoint.all (¬· <:+: inside)) :
    ∀ word ∈ floatingPoint, ¬word <:+: inside := fun word floating =>
  of_decide_eq_true (List.all_eq_true.mp absent word floating)

/-- A text between separators that holds no such word may replace another. -/
theorem quoted_float_free {edit : Substitution} {opening ending : Char} (old new : Text)
    (anywhere : edit.wholeWord = false) (pattern : edit.pattern = opening :: (old ++ [ending]))
    (replacement : edit.replacement = opening :: (new ++ [ending]))
    (opens : locale.isWord opening = false) (ends : locale.isWord ending = false)
    (absent : floatingPoint.all (¬· <:+: new)) {text : Text} (free : FloatFree locale text) :
    FloatFree locale (edit.apply locale.isWord text) := by
  intro word floating member
  have literal : edit.Literal locale.isWord (opening :: old) (opening :: new) :=
    ⟨anywhere, ⟨ending, ends, pattern⟩, ending, ends, replacement⟩
  apply free word floating
  apply mem_words_of_literal literal _ text member
  intro run _
  exact made_behind_separator opens opens (not_infix_of_not_any absent word floating) run

theorem alignof_float_free {text : Text} (free : FloatFree locale text) :
    FloatFree locale (alignofBuiltin.apply locale.isWord text) := by
  intro word floating member
  have parenthesis : locale.isWord '(' = false := separates_of_ascii locale (by decide) (by decide)
  have literal : alignofBuiltin.Literal locale.isWord "alignof".toList "__alignof__".toList :=
    ⟨rfl, ⟨'(', parenthesis, rfl⟩, '(', parenthesis, rfl⟩
  apply free word floating
  apply mem_words_of_literal literal _ text member
  intro run runWord made
  refine absurd made (not_made_by_word (one_word_of_ascii locale (by decide)) (by decide) ?_ runWord)
  simp only [floatingPoint, List.mem_cons, List.not_mem_nil, or_false] at floating
  rcases floating with rfl | rfl <;> decide

theorem delete_lines_float_free (pattern : Text) {text : Text} (free : FloatFree locale text) :
    FloatFree locale (deleteLines pattern text) := by
  have newline : locale.isWord '\n' = false := separates_of_ascii locale (by decide) (by decide)
  intro word floating member
  exact free word floating (mem_words_of_delete newline pattern text member)

theorem rewrite_pbtools_c_float_free (text : Text) :
    FloatFree locale (rewritePbtoolsC locale text) := by
  have quote : locale.isWord '\"' = false := separates_of_ascii locale (by decide) (by decide)
  apply alignof_float_free
  apply delete_lines_float_free
  apply delete_lines_float_free
  apply quoted_float_free locale "pbtools.h".toList "protobuf_lkm.h".toList rfl rfl rfl quote quote
    (by decide)
  exact rewrite_types_float_free locale text

theorem rewrite_pbtools_h_float_free (text : Text) :
    FloatFree locale (rewritePbtoolsH locale text) := by
  have opening : locale.isWord '<' = false := separates_of_ascii locale (by decide) (by decide)
  have ending : locale.isWord '>' = false := separates_of_ascii locale (by decide) (by decide)
  apply quoted_float_free locale "string.h".toList "linux/module.h".toList rfl rfl rfl opening
    ending (by decide)
  apply quoted_float_free locale "stdbool.h".toList "linux/kernel.h".toList rfl rfl rfl opening
    ending (by decide)
  apply quoted_float_free locale "stdint.h".toList "linux/init.h".toList rfl rfl rfl opening
    ending (by decide)
  exact rewrite_types_float_free locale text

end Absence

section Generated

open PosixPath FileWrites GeneratedTexts GenerateFilesFaults
open GenerateFiles hiding Text

variable {Parsed Options : Type} {tools : Toolchain Parsed Options} {disk : Disk}
  {arguments : Arguments Options} {writes : List Write}

/-- The module's own files hold their texts after a call that returned. -/
theorem module_text_held (returned : generateFiles tools disk arguments = some writes)
    {first : Path} {rest : List Path} (split : arguments.infiles = first :: rest)
    (before : Path → Option Text) :
    ∀ text ∈ moduleTexts tools arguments (generatedName tools first),
      files before writes (join arguments.outputDirectory text.1) = some text.2 := by
  intro text member
  obtain ⟨head, tail, generated, whole, _, rfl⟩ := generate_files_eq_some returned
  rw [split] at whole
  cases whole
  obtain ⟨earlier, later, around⟩ := List.append_of_mem member
  have names : ((moduleTexts tools arguments (generatedName tools first)).map Prod.fst).Nodup := by
    rw [module_texts_files]
    decide
  rw [around, List.map_append, List.map_cons, ← List.append_assoc]
  apply files_last_write _ before
  intro write behind
  obtain ⟨other, inside, rfl⟩ := List.mem_map.mp behind
  rw [around, List.map_append, List.map_cons, List.nodup_append] at names
  have different : text.1 ≠ other.1 := by
    intro same
    exact (List.nodup_cons.mp names.2.1).1 (same ▸ List.mem_map_of_mem inside)
  have relative : ∀ own ∈ moduleTexts tools arguments (generatedName tools first),
      own.1.head? ≠ some '/' := fun own present slash =>
    module_texts_relative tools arguments _ own present (List.mem_of_mem_head? slash)
  intro same
  apply different
  apply (join_cancel _ (relative text member) same).symm
  exact relative other (by rw [around]; simp [inside])

variable (locale : Locale) {characterNames : List Char → Option Char}

theorem written_file_embeddable {embedding : Embedding} (plain : embedding.Plain) {text : Text}
    (embeddable : Embeddable text) :
    writtenFile characterNames embedding (generateFilesSh embedding text).pyModule =
      some ('\n' :: text) :=
  (written_file_exact_iff plain text).mpr embeddable

theorem written_float_free {embedding : Embedding} (plain : embedding.Plain) {text written : Text}
    (embeddable : Embeddable text) (free : FloatFree locale text)
    (runtime : writtenFile characterNames embedding (generateFilesSh embedding text).pyModule =
      some written) : FloatFree locale written := by
  rw [written_file_embeddable plain embeddable] at runtime
  cases runtime
  have newline : locale.isWord '\n' = false := separates_of_ascii locale (by decide) (by decide)
  intro word floating member
  apply free word floating
  have split : words locale.isWord ([] ++ '\n' :: text) = _ := words_next newline [] text
  rw [List.nil_append] at split
  have inside : word ∈ words locale.isWord ('\n' :: text) := member
  rw [split, words, pieces_nil, List.nil_append] at inside
  exact inside

/-- Where the literals give the rewritten pbtools sources back as they are, the
runtime beside a generated module does not mention a floating-point type. An
escape in them could still spell one. -/
theorem generated_runtime_float_free
    (returned : generateFiles tools disk arguments = some writes) (before : Path → Option Text)
    {pbtoolsC pbtoolsH : Text} (embeddableC : Embeddable (rewritePbtoolsC locale pbtoolsC))
    (embeddableH : Embeddable (rewritePbtoolsH locale pbtoolsH))
    (runtimeC : writtenFile characterNames generatePbtoolsC
      (generateFilesSh generatePbtoolsC (rewritePbtoolsC locale pbtoolsC)).pyModule =
        some tools.pbtoolsC)
    (runtimeH : writtenFile characterNames generatePbtoolsH
      (generateFilesSh generatePbtoolsH (rewritePbtoolsH locale pbtoolsH)).pyModule =
        some tools.pbtoolsH) :
    ∀ file ∈ ["protobuf_lkm.c".toList, "protobuf_lkm.h".toList], ∃ content,
      files before writes (join arguments.outputDirectory file) = some content ∧
        FloatFree locale content := by
  obtain ⟨first, rest, _, split, _⟩ := generate_files_eq_some returned
  have held := module_text_held returned split before
  intro file member
  rcases List.mem_pair.mp member with rfl | rfl
  · refine ⟨tools.pbtoolsC, held ("protobuf_lkm.c".toList, tools.pbtoolsC) ?_, ?_⟩
    · simp [moduleTexts]
    · exact written_float_free locale generate_pbtools_plain.1 embeddableC
        (rewrite_pbtools_c_float_free locale pbtoolsC) runtimeC
  · refine ⟨tools.pbtoolsH, held ("protobuf_lkm.h".toList, tools.pbtoolsH) ?_, ?_⟩
    · simp [moduleTexts]
    · exact written_float_free locale generate_pbtools_plain.2 embeddableH
        (rewrite_pbtools_h_float_free locale pbtoolsH) runtimeH

/-- A text without backslashes and single quotes means itself. -/
theorem embeddable_of_absent {text : Text}
    (absent : text.all fun char => decide (char ∉ ['\\', '\'', '\r', '\x00'])) :
    Embeddable text := by
  have plain : ∀ char ∈ text, char ∉ ['\\', '\'', '\r', '\x00'] := by
    intro char member
    exact of_decide_eq_true (List.all_eq_true.mp absent char member)
  refine ⟨fun member => plain _ member (by simp), fun member => plain _ member (by simp), ?_⟩
  clear absent
  induction text with
  | nil => exact verbatim_nil
  | cons char rest ih =>
      have own := plain char List.mem_cons_self
      simp only [List.mem_cons, List.not_mem_nil, or_false, not_or] at own
      have tail := ih fun other member => plain other (List.mem_cons_of_mem _ member)
      apply @verbatim_plain char rest [] tail own.1
      intro before
      exact own.2.1 (List.cons_prefix_cons.mp before).1.symm

/-- The C locale. -/
def asciiLocale : Locale where
  isWord char := char.isAlphanum || char == '_'
  ascii _ _ := rfl

/-- A line of each kind the script looks at. -/
def sampleSource : Text :=
  "#include <limits.h>\nfloat f(double value_float);\nalignof(float)\n".toList

def sampleTools (pbtoolsC pbtoolsH : Text) : Toolchain Path Unit :=
  { echoTools with pbtoolsC := pbtoolsC, pbtoolsH := pbtoolsH }

theorem generated_runtime_float_free_sample :
    rewritePbtoolsC asciiLocale sampleSource =
        "uint32_t f(uint64_t value_float);\n__alignof__(uint32_t)\n".toList ∧
      ∃ (tools : Toolchain Path Unit) (writes : List Write),
        generateFiles tools openDisk (twoFiles "foo.proto" "bar.proto") = some writes ∧
        ∀ file ∈ ["protobuf_lkm.c".toList, "protobuf_lkm.h".toList], ∃ content,
          files (fun _ => none) writes (join ".".toList file) = some content ∧
            FloatFree asciiLocale content := by
  have rewritten : rewritePbtoolsC asciiLocale sampleSource =
      "uint32_t f(uint64_t value_float);\n__alignof__(uint32_t)\n".toList := by decide +kernel
  have embeddableC : Embeddable (rewritePbtoolsC asciiLocale sampleSource) :=
    embeddable_of_absent (by decide +kernel)
  have embeddableH : Embeddable (rewritePbtoolsH asciiLocale sampleSource) :=
    embeddable_of_absent (by decide +kernel)
  have runtimeC := @written_file_embeddable (fun _ => none) _ generate_pbtools_plain.1 _ embeddableC
  have runtimeH := @written_file_embeddable (fun _ => none) _ generate_pbtools_plain.2 _ embeddableH
  generalize textC : '\n' :: rewritePbtoolsC asciiLocale sampleSource = pbtoolsC at runtimeC
  generalize textH : '\n' :: rewritePbtoolsH asciiLocale sampleSource = pbtoolsH at runtimeH
  have returned : generateFiles (sampleTools pbtoolsC pbtoolsH) openDisk
    (twoFiles "foo.proto" "bar.proto") = some _ := rfl
  exact ⟨rewritten, _, _, returned, generated_runtime_float_free asciiLocale returned _ embeddableC
    embeddableH runtimeC runtimeH⟩

end Generated

end ProtobufLkm.PbtoolsRewriting
