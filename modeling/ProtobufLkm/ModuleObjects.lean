import ProtobufLkm.GeneratedTexts
import ProtobufLkm.ModuleTexts
import Mathlib.Data.List.Dedup

/-!
# What the generated module is linked from

The `Makefile` names one generated object and `main.c` includes one generated
header, both of the first input file. Only a single generated source is linked,
however many were written.
-/

namespace ProtobufLkm.ModuleObjects

open SeparatedText PosixPath MakefileText FileWrites GenerateFiles GeneratedTexts ModuleTexts

set_option autoImplicit false

section Linked

variable {Parsed Options : Type} (tools : Toolchain Parsed Options) (arguments : Arguments Options)

/-- The name of a source below `generated`. -/
def sourceName (path : Path) : Option Text :=
  (path.dropPrefix? (generatePath arguments ++ ['/'])).bind fun file =>
    if ".c".toList <:+ file then some (file.rdrop 2) else none

def generatedSources (writes : List Write) : List Text :=
  (writes.filterMap fun write => sourceName arguments write.path).dedup

/-- The module of the first input file has the objects of all sources the call
generated, and `main.c` includes a header the call wrote. -/
structure LinksAll (before : Path → Option Text) (writes : List Write) (first : Path) : Prop where
  objects : ∃ text words,
    files before writes (join arguments.outputDirectory "Makefile".toList) = some text ∧
      assignedWords (moduleName arguments.moduleType (generatedName tools first) ++ "-y".toList)
        text = some words ∧
      words.Perm ("main.o".toList :: "protobuf_lkm.o".toList ::
        (generatedSources arguments writes).map objectOf)
  header : ∃ text header,
    files before writes (join arguments.outputDirectory "main.c".toList) = some text ∧
      includedHeader text = some header ∧
      ∃ write ∈ writes, ".h".toList <:+ write.path ∧
        SameFile (join arguments.outputDirectory header) write.path

/-- `make` and the C preprocessor take the name as it stands. -/
def ReadableName (name : Text) : Prop := ∀ char ∈ name, isNameChar char ∧ char ≠ '\"'

end Linked

section Sources

variable {Parsed Options : Type} (tools : Toolchain Parsed Options) (arguments : Arguments Options)

theorem not_suffix_of_last {path suffix : Path} {char : Char} (last : suffix.getLast? = some char)
    (other : path.getLast? ≠ some char) : ¬suffix <:+ path := by
  rintro ⟨front, rfl⟩
  apply other
  rw [List.getLast?_append, last, Option.some_or]

theorem source_name_header (filename : Path) :
    sourceName arguments (headerPath tools arguments filename) = none := by
  have header : ¬".c".toList <:+ generatedName tools filename ++ ".h".toList :=
    not_suffix_of_last (by simp : ".c".toList.getLast? = some 'c') (by simp [List.getLast?_append])
  rw [sourceName, header_path_eq, ← List.singleton_append, ← List.append_assoc,
    List.dropPrefix?_append_of_beq _ (beq_self_eq_true _), Option.bind_some, if_neg header]

theorem source_name_source (filename : Path) :
    sourceName arguments (sourcePath tools arguments filename) =
      some (generatedName tools filename) := by
  rw [sourceName, source_path_eq, ← List.singleton_append, ← List.append_assoc,
    List.dropPrefix?_append_of_beq _ (beq_self_eq_true _), Option.bind_some,
    if_pos (List.suffix_append _ _)]
  simp [List.rdrop]

theorem source_name_module {file : Path} (absent : '/' ∉ file) :
    sourceName arguments (join arguments.outputDirectory file) = none := by
  have outside : (join arguments.outputDirectory file).dropPrefix?
      (generatePath arguments ++ ['/']) = none := by
    rw [Option.eq_none_iff_forall_ne_some]
    intro rest found
    obtain ⟨front, split, same⟩ := List.dropPrefix?_eq_some_iff.mp found
    apply module_path_ne arguments absent rest
    rw [split, eq_of_beq same, List.append_assoc, List.singleton_append]
  rw [sourceName, outside, Option.bind_none]

variable {tools : Toolchain Parsed Options} {disk : Disk} {arguments : Arguments Options}

theorem generated_sources_each {filenames : List Path} {writes : List Write}
    (generated : generateEach tools disk arguments filenames = some writes) :
    (writes.filterMap fun write => sourceName arguments write.path) =
      filenames.map (generatedName tools) := by
  induction filenames generalizing writes with
  | nil =>
      cases generated
      rfl
  | cons filename rest ih =>
      obtain ⟨fileWrites, later, file, others, rfl⟩ := generate_each_cons generated
      obtain ⟨header, source, _, rfl⟩ := generate_file_eq_some file
      rw [List.filterMap_append, ih others]
      simp [source_name_header, source_name_source]

/-- One source for each generated name. -/
theorem generated_sources_eq {writes : List Write}
    (returned : generateFiles tools disk arguments = some writes) :
    generatedSources arguments writes = (arguments.infiles.map (generatedName tools)).dedup := by
  obtain ⟨first, rest, generated, _, each, rfl⟩ := generate_files_eq_some returned
  rw [generatedSources, List.filterMap_append, generated_sources_each each]
  apply congrArg List.dedup
  rw [List.append_right_eq_self, List.filterMap_eq_nil_iff]
  intro write member
  obtain ⟨text, inside, rfl⟩ := List.mem_map.mp member
  exact source_name_module arguments (module_texts_relative tools arguments _ text inside)

theorem object_of_injective {first second : Text} (same : objectOf first = objectOf second) :
    first = second :=
  List.append_cancel_right (List.append_cancel_left same)

theorem names_of_rest {first : Path} {rest : List Path}
    (split : arguments.infiles = first :: rest)
    (names : ∀ other ∈ rest, generatedName tools other = generatedName tools first) :
    ∀ filename ∈ arguments.infiles, generatedName tools filename = generatedName tools first := by
  intro filename inside
  rw [split] at inside
  rcases List.mem_cons.mp inside with rfl | behind
  · rfl
  · exact names filename behind

theorem generated_sources_single {first : Path} {rest : List Path} {writes : List Write}
    (returned : generateFiles tools disk arguments = some writes)
    (split : arguments.infiles = first :: rest)
    (names : ∀ other ∈ rest, generatedName tools other = generatedName tools first) :
    generatedSources arguments writes = [generatedName tools first] := by
  have replicated : arguments.infiles.map (generatedName tools) =
      List.replicate (rest.length + 1) (generatedName tools first) := by
    rw [List.eq_replicate_iff, split]
    refine ⟨by simp, ?_⟩
    intro name member
    obtain ⟨other, inside, rfl⟩ := List.mem_map.mp member
    exact names_of_rest split names other (split ▸ inside)
  rw [generated_sources_eq returned, replicated, List.replicate_dedup (Nat.succ_ne_zero _)]

/-- The objects of other sources are not listed. -/
theorem names_of_single_object {first : Path} {rest : List Path} {writes : List Write}
    (returned : generateFiles tools disk arguments = some writes)
    (split : arguments.infiles = first :: rest)
    (linked : [objectOf (generatedName tools first)].Perm
      ((generatedSources arguments writes).map objectOf)) :
    ∀ other ∈ rest, generatedName tools other = generatedName tools first := by
  intro other member
  have source : generatedName tools other ∈ generatedSources arguments writes := by
    rw [generated_sources_eq returned, split, List.mem_dedup]
    exact List.mem_map_of_mem (List.mem_cons_of_mem _ member)
  have object := linked.symm.subset (List.mem_map_of_mem source)
  exact object_of_injective (List.mem_singleton.mp object)

end Sources

section Include

variable {Parsed Options : Type} {tools : Toolchain Parsed Options}
  {arguments : Arguments Options}

/-- The include is looked up next to `main.c`. -/
theorem same_header_iff (tools : Toolchain Parsed Options) (filename : Path) {file : Path}
    (absent : '/' ∉ file) :
    SameFile (join arguments.outputDirectory ("generated".toList ++ '/' :: file))
        (headerPath tools arguments filename) ↔
      file = generatedName tools filename ++ ".h".toList ∧ arguments.outputDirectory ≠ [] :=
  same_generated_iff absent (by simp) (slash_not_mem_header tools filename)

theorem not_same_library (file : Path) :
    ¬SameFile (join arguments.outputDirectory ("generated".toList ++ '/' :: file))
      (join arguments.outputDirectory "protobuf_lkm.h".toList) := by
  intro same
  have names := same.2
  rw [← generatedFile, components_generated_file, components_join (by simp),
    List.append_cancel_left_eq,
    components_eq_singleton (by simp) (by simp : '/' ∉ "protobuf_lkm.h".toList)] at names
  have directory := (List.cons.inj names).1
  simp at directory

/-- The file below `generated` that is included for a name: a quote ends it. -/
def includedFile (name : Text) : Text := (name ++ ".h".toList ++ ['\"']).takeWhile (· ≠ '\"')

theorem included_file_unquoted {name : Text} (unquoted : ∀ char ∈ name, char ≠ '\"') :
    includedFile name = name ++ ".h".toList := by
  have extension : ∀ char ∈ ".h".toList, char ≠ '\"' := by simp
  have header : ∀ char ∈ name ++ ".h".toList, decide (char ≠ '\"') := by
    intro char member
    rcases List.mem_append.mp member with own | suffix
    · exact decide_eq_true (unquoted char own)
    · exact decide_eq_true (extension char suffix)
  rw [includedFile, List.takeWhile_append_of_pos header, List.takeWhile_cons_of_neg (by decide),
    List.append_nil]

theorem unquoted_of_included {name : Text} (whole : includedFile name = name ++ ".h".toList) :
    ∀ char ∈ name, char ≠ '\"' := by
  intro char member
  have kept : char ∈ includedFile name := by
    rw [whole]
    exact List.mem_append_left _ member
  have unquoted := List.mem_takeWhile_imp kept
  exact of_decide_eq_true unquoted

theorem slash_not_mem_included {name : Text} (absent : '/' ∉ name) : '/' ∉ includedFile name := by
  intro slash
  have inside := (List.takeWhile_prefix _).subset slash
  simp [absent] at inside

end Include

section Links

variable {Parsed Options : Type} {tools : Toolchain Parsed Options} {disk : Disk}
  {arguments : Arguments Options} {writes : List Write}
  (returned : generateFiles tools disk arguments = some writes)

/-- The only header among the module's own files. -/
theorem module_texts_last (tools : Toolchain Parsed Options) (arguments : Arguments Options)
    (name : Text) : ∀ text ∈ moduleTexts tools arguments name,
      text.1 = "protobuf_lkm.h".toList ∨ text.1.getLast? ≠ some 'h' := by
  intro text member
  simp only [moduleTexts, List.mem_cons, List.not_mem_nil, or_false] at member
  rcases member with rfl | rfl | rfl | rfl | rfl <;> simp

include returned

theorem module_files {first : Path} {rest : List Path} (split : arguments.infiles = first :: rest)
    (before : Path → Option Text) :
    files before writes (join arguments.outputDirectory "Makefile".toList) =
        some (makefile (moduleName arguments.moduleType (generatedName tools first))
          (generatedName tools first) (insmodExtra arguments.moduleType)) ∧
      files before writes (join arguments.outputDirectory "main.c".toList) =
        some (mainC arguments.moduleType
          (join "generated".toList (generatedName tools first ++ ".h".toList))
          (tools.mainRest arguments.moduleType
            (moduleName arguments.moduleType (generatedName tools first)))) := by
  obtain ⟨head, tail, generated, whole, _, rfl⟩ := generate_files_eq_some returned
  rw [split] at whole
  cases whole
  simp only [moduleTexts, List.map_cons, List.map_nil]
  constructor
  · change files before (generated ++ ([_, _, _, _] ++ [_])) _ = _
    rw [← List.append_assoc]
    exact files_last_write (by simp) before _ _
  · change files before (generated ++ ([_, _, _] ++ [_, _])) _ = _
    rw [← List.append_assoc]
    apply files_last_write _ before
    intro write member
    rw [List.mem_singleton.mp member]
    intro same
    have makefileRelative : "Makefile".toList.head? ≠ some '/' := by simp
    have mainRelative : "main.c".toList.head? ≠ some '/' := by simp
    have names := join_cancel makefileRelative mainRelative same
    simp at names

theorem header_write_cases :
    ∀ write ∈ writes, ".h".toList <:+ write.path →
      (∃ filename ∈ arguments.infiles, write.path = headerPath tools arguments filename) ∨
        write.path = join arguments.outputDirectory "protobuf_lkm.h".toList := by
  have last : ".h".toList.getLast? = some 'h' := by simp
  obtain ⟨head, tail, generated, _, each, rfl⟩ := generate_files_eq_some returned
  intro write member suffix
  rcases List.mem_append.mp member with generated | own
  · obtain ⟨filename, inside, header | source⟩ := generate_each_paths each write generated
    · exact Or.inl ⟨filename, inside, header⟩
    · rw [source, sourcePath] at suffix
      refine absurd suffix (not_suffix_of_last last ?_)
      rw [join_last _ (by simp)]
      simp [List.getLast?_append]
  · obtain ⟨text, inside, rfl⟩ := List.mem_map.mp own
    have nonempty := module_texts_nonempty tools arguments _ text inside
    rcases module_texts_last tools arguments _ text inside with library | other
    · rw [library]
      exact Or.inr rfl
    · refine absurd suffix (not_suffix_of_last last ?_)
      rwa [join_last _ nonempty]

theorem objects_of_one {before : Path → Option Text} {first : Path} {rest : List Path}
    (split : arguments.infiles = first :: rest)
    (links : LinksAll tools arguments before writes first) :
    (∀ other ∈ rest, generatedName tools other = generatedName tools first) ∧
      ∀ char ∈ generatedName tools first, isNameChar char := by
  obtain ⟨text, words, written, read, linked⟩ := links.objects
  rw [(module_files returned split before).1] at written
  cases written
  by_cases plain : ∀ char ∈ generatedName tools first, isNameChar char
  · rw [makefile_words plain] at read
    cases read
    rw [List.perm_cons, List.perm_cons] at linked
    exact ⟨names_of_single_object returned split linked, plain⟩
  · rw [assignedWords, if_neg ((module_name_all _ _).not.mpr plain)] at read
    cases read

theorem included_header_written (before : Path → Option Text) {first : Path} {rest : List Path}
    (split : arguments.infiles = first :: rest)
    (plain : ∀ char ∈ generatedName tools first, isNameChar char) :
    ∃ text, files before writes (join arguments.outputDirectory "main.c".toList) = some text ∧
      includedHeader text =
        some ("generated".toList ++ '/' :: includedFile (generatedName tools first)) := by
  have newline := not_mem_name plain (by decide : isNameChar '\n' = false)
  have relative : (generatedName tools first ++ ".h".toList).head? ≠ some '/' := by
    intro slash
    exact slash_not_mem_header tools first (List.mem_of_mem_head? slash)
  have path : join "generated".toList (generatedName tools first ++ ".h".toList) =
      "generated".toList ++ '/' :: (generatedName tools first ++ ".h".toList) :=
    join_eq relative (by simp) (by simp)
  refine ⟨_, (module_files returned split before).2, ?_⟩
  rw [path, included_header_main _ (by simp [newline]), List.append_assoc,
    List.takeWhile_append_of_pos (by simp), List.cons_append, List.takeWhile_cons_of_pos (by simp)]
  rfl

theorem links_all_of_readable (before : Path → Option Text) {first : Path} {rest : List Path}
    (split : arguments.infiles = first :: rest)
    (names : ∀ other ∈ rest, generatedName tools other = generatedName tools first)
    (readable : ReadableName (generatedName tools first))
    (nonempty : arguments.outputDirectory ≠ []) :
    LinksAll tools arguments before writes first := by
  have plain : ∀ char ∈ generatedName tools first, isNameChar char :=
    fun char member => (readable char member).1
  obtain ⟨text, written, included⟩ := included_header_written returned before split plain
  rw [included_file_unquoted fun char member => (readable char member).2] at included
  constructor
  · refine ⟨_, _, (module_files returned split before).1, makefile_words plain _ _, ?_⟩
    rw [generated_sources_single returned split names]
    exact List.Perm.refl _
  · have whole : arguments.infiles = [] ++ first :: rest := split
    obtain ⟨header, source, earlierWrites, laterWrites, moduleWrites, _, _, _, rfl⟩ :=
      generate_files_at returned whole
    refine ⟨text, _, written, included, ⟨headerPath tools arguments first, header⟩, by simp, ?_, ?_⟩
    · rw [header_path_eq, ← List.singleton_append, ← List.append_assoc, ← List.append_assoc]
      exact List.suffix_append _ _
    · exact (same_header_iff tools first (slash_not_mem_header tools first)).mpr ⟨rfl, nonempty⟩

theorem readable_of_links {before : Path → Option Text} {first : Path} {rest : List Path}
    (split : arguments.infiles = first :: rest)
    (names : ∀ other ∈ rest, generatedName tools other = generatedName tools first)
    (plain : ∀ char ∈ generatedName tools first, isNameChar char)
    (links : LinksAll tools arguments before writes first) :
    ReadableName (generatedName tools first) ∧ arguments.outputDirectory ≠ [] := by
  obtain ⟨text, written, included⟩ := included_header_written returned before split plain
  obtain ⟨_, header, read, named, write, member, suffix, same⟩ := links.header
  rw [written] at read
  cases read
  rw [included] at named
  cases named
  have absent := slash_not_mem_included (slash_not_mem_generated_name tools first)
  rcases header_write_cases returned write member suffix with ⟨filename, inside, own⟩ | library
  · rw [own, same_header_iff tools filename absent,
      names_of_rest split names filename inside] at same
    have unquoted := unquoted_of_included same.1
    exact ⟨fun char inside => ⟨plain char inside, unquoted char inside⟩, same.2⟩
  · rw [library] at same
    exact absurd same (not_same_library _)

/-- The module is linked from all that was generated exactly when that is a
single source, whose name is read as it stands, below a named output directory. -/
theorem generated_module_links_all_iff (before : Path → Option Text) {first : Path}
    {rest : List Path} (split : arguments.infiles = first :: rest) :
    LinksAll tools arguments before writes first ↔
      (∀ other ∈ rest, generatedName tools other = generatedName tools first) ∧
        ReadableName (generatedName tools first) ∧ arguments.outputDirectory ≠ [] := by
  constructor
  · intro links
    obtain ⟨names, plain⟩ := objects_of_one returned split links
    exact ⟨names, readable_of_links returned split names plain links⟩
  · rintro ⟨names, readable, nonempty⟩
    exact links_all_of_readable returned before split names readable nonempty

end Links

section Samples

def oneFile (first : String) : Arguments Unit :=
  { twoFiles first first with infiles := [first.toList] }

theorem generated_module_links_all_one_file :
    ∃ writes, generateFiles echoTools openDisk (oneFile "a/foo.proto") = some writes ∧
      LinksAll echoTools (oneFile "a/foo.proto") (fun _ => none) writes "a/foo.proto".toList := by
  have returned : generateFiles echoTools openDisk (oneFile "a/foo.proto") = some _ := rfl
  refine ⟨_, returned, ?_⟩
  apply (generated_module_links_all_iff returned _ rfl).mpr
  have name : generatedName echoTools "a/foo.proto".toList = "foo".toList := by decide +kernel
  rw [name]
  exact ⟨by simp, by simp [ReadableName, isNameChar, isWhite], by simp [oneFile, twoFiles]⟩

/-- Two names, two sources, one object. -/
theorem second_file_not_linked :
    ∃ writes, generateFiles echoTools openDisk (twoFiles "foo.proto" "bar.proto") = some writes ∧
      ((twoFiles "foo.proto" "bar.proto").infiles.map (generatedName echoTools)).Nodup ∧
      generatedSources (twoFiles "foo.proto" "bar.proto") writes =
        ["foo".toList, "bar".toList] ∧
      ¬LinksAll echoTools (twoFiles "foo.proto" "bar.proto") (fun _ => none) writes
        "foo.proto".toList := by
  have returned :
      generateFiles echoTools openDisk (twoFiles "foo.proto" "bar.proto") = some _ := rfl
  refine ⟨_, returned, by decide +kernel, by decide +kernel, ?_⟩
  intro links
  have names := (objects_of_one returned rfl links).1 "bar.proto".toList List.mem_cons_self
  revert names
  decide +kernel

end Samples

end ProtobufLkm.ModuleObjects
