import ProtobufLkm.GenerateFiles

/-!
# Generated files that later input files replace

The path of a generated file comes from the snake-case form of the base name of
its input file. Two input paths with one such form write the same two files, and
`generate_files` does not look for that. Where the files belong is said apart
from the paths it computes.
-/

namespace ProtobufLkm.GeneratedTexts

open SeparatedText PosixPath FileWrites GenerateFiles

set_option autoImplicit false

section Kept

variable {Parsed Options : Type} (tools : Toolchain Parsed Options) (disk : Disk)
  (arguments : Arguments Options)

/-- Where a generated file belongs: in `generated`, beside the module's own files. -/
def generatedFile (file : Path) : Path :=
  join arguments.outputDirectory ("generated".toList ++ '/' :: file)

def headerFile (filename : Path) : Path :=
  generatedFile arguments (generatedName tools filename ++ ".h".toList)

def sourceFile (filename : Path) : Path :=
  generatedFile arguments (generatedName tools filename ++ ".c".toList)

/-- The last write to this file, under whatever path, puts the text there. -/
def LastWritten (writes : List Write) (place : Path) (text : Text) : Prop :=
  ∃ earlier last later, writes = earlier ++ last :: later ∧ last.content = text ∧
    SameFile place last.path ∧ ∀ write ∈ later, ¬SameFile place write.path

/-- The generated files hold the texts of this input file, and the input files
behind it write other files. -/
structure TextsKept (writes : List Write) (filename : Path) (later : List Path) : Prop where
  hold : ∀ header source, generatedTexts tools arguments filename = some (header, source) →
    LastWritten writes (headerFile tools arguments filename) header ∧
      LastWritten writes (sourceFile tools arguments filename) source
  unreplaced : ∀ other ∈ later, ∀ otherWrites,
    generateFile tools disk arguments other = some otherWrites →
      ∀ write ∈ otherWrites, ¬SameFile (headerFile tools arguments filename) write.path ∧
        ¬SameFile (sourceFile tools arguments filename) write.path

def AllTextsKept (writes : List Write) : Prop :=
  ∀ earlier filename later, arguments.infiles = earlier ++ filename :: later →
    TextsKept tools disk arguments writes filename later

end Kept

section Paths

variable {Parsed Options : Type} (tools : Toolchain Parsed Options) (arguments : Arguments Options)

theorem generated_path_eq {name : Path} (absent : '/' ∉ name) :
    join (generatePath arguments) name = generatePath arguments ++ '/' :: name := by
  apply join_eq
  · intro slash
    exact absent (List.mem_of_mem_head? slash)
  · simp [generatePath]
  · simp [generatePath]

theorem slash_not_mem_header (filename : Path) :
    '/' ∉ generatedName tools filename ++ ".h".toList := by
  simp [slash_not_mem_generated_name tools filename]

theorem slash_not_mem_source (filename : Path) :
    '/' ∉ generatedName tools filename ++ ".c".toList := by
  simp [slash_not_mem_generated_name tools filename]

theorem header_path_eq (filename : Path) :
    headerPath tools arguments filename =
      generatePath arguments ++ '/' :: (generatedName tools filename ++ ".h".toList) :=
  generated_path_eq arguments (slash_not_mem_header tools filename)

theorem source_path_eq (filename : Path) :
    sourcePath tools arguments filename =
      generatePath arguments ++ '/' :: (generatedName tools filename ++ ".c".toList) :=
  generated_path_eq arguments (slash_not_mem_source tools filename)

theorem components_directory : components "generated".toList = ["generated".toList] :=
  components_eq_singleton (by simp) (by simp)

theorem components_generated {arguments : Arguments Options} {name : Path} (nonempty : name ≠ [])
    (absent : '/' ∉ name) : components (join (generatePath arguments) name) =
      components arguments.outputDirectory ++ ["generated".toList, name] := by
  have slash : "/generated".toList = '/' :: "generated".toList := by simp
  rw [generated_path_eq arguments absent, components_append_slash, generatePath, slash,
    components_append_slash, components_directory, components_eq_singleton nonempty absent,
    List.append_assoc]
  rfl

theorem components_generated_file (file : Path) :
    components (generatedFile arguments file) =
      components arguments.outputDirectory ++ "generated".toList :: components file := by
  rw [generatedFile, components_join (by simp), components_append_slash, components_directory,
    List.singleton_append]

/-- The files are written where they belong. With an empty output directory they
went to `/generated`. -/
theorem same_generated_iff {arguments : Arguments Options} {file name : Path}
    (fileAbsent : '/' ∉ file) (nonempty : name ≠ []) (absent : '/' ∉ name) :
    SameFile (generatedFile arguments file) (join (generatePath arguments) name) ↔
      file = name ∧ arguments.outputDirectory ≠ [] := by
  rw [SameFile, components_generated_file, components_generated nonempty absent,
    List.append_cancel_left_eq]
  constructor
  · rintro ⟨anchored, same⟩
    have names := (List.cons.inj same).2
    constructor
    · by_cases empty : file = []
      · rw [empty, components, pieces_nil] at names
        cases names
      · rw [components_eq_singleton empty fileAbsent] at names
        exact (List.cons.inj names).1
    · intro empty
      rw [generated_path_eq arguments absent, generatedFile, generatePath, join, empty] at anchored
      simp at anchored
  · rintro ⟨rfl, given⟩
    constructor
    · rw [generatedFile, join_head (by simp) given, generated_path_eq arguments absent,
        generatePath, List.append_assoc, List.head?_append_of_ne_nil _ given]
    · rw [components_eq_singleton nonempty absent]

theorem header_at_iff (filename other : Path) :
    SameFile (headerFile tools arguments filename) (headerPath tools arguments other) ↔
      generatedName tools filename = generatedName tools other ∧
        arguments.outputDirectory ≠ [] := by
  rw [headerFile, headerPath, same_generated_iff (slash_not_mem_header tools filename) (by simp)
    (slash_not_mem_header tools other), List.append_left_inj]

theorem source_at_iff (filename other : Path) :
    SameFile (sourceFile tools arguments filename) (sourcePath tools arguments other) ↔
      generatedName tools filename = generatedName tools other ∧
        arguments.outputDirectory ≠ [] := by
  rw [sourceFile, sourcePath, same_generated_iff (slash_not_mem_source tools filename) (by simp)
    (slash_not_mem_source tools other), List.append_left_inj]

theorem header_name_ne_source_name (first second : Path) :
    generatedName tools first ++ ".h".toList ≠ generatedName tools second ++ ".c".toList := by
  intro same
  have last := congrArg List.getLast? same
  simp at last

theorem header_not_at_source (filename other : Path) :
    ¬SameFile (headerFile tools arguments filename) (sourcePath tools arguments other) := by
  rw [headerFile, sourcePath, same_generated_iff (slash_not_mem_header tools filename) (by simp)
    (slash_not_mem_source tools other)]
  exact fun same => header_name_ne_source_name tools filename other same.1

theorem source_not_at_header (filename other : Path) :
    ¬SameFile (sourceFile tools arguments filename) (headerPath tools arguments other) := by
  rw [sourceFile, headerPath, same_generated_iff (slash_not_mem_source tools filename) (by simp)
    (slash_not_mem_header tools other)]
  exact fun same => header_name_ne_source_name tools other filename same.1.symm

theorem other_files_ne {tools : Toolchain Parsed Options} {arguments : Arguments Options}
    {other filename path : Path}
    (different : generatedName tools other ≠ generatedName tools filename)
    (own : path = headerPath tools arguments other ∨ path = sourcePath tools arguments other) :
    ¬SameFile (headerFile tools arguments filename) path ∧
      ¬SameFile (sourceFile tools arguments filename) path := by
  rcases own with rfl | rfl
  · refine ⟨?_, source_not_at_header tools arguments filename other⟩
    rw [header_at_iff]
    exact fun same => different same.1.symm
  · refine ⟨header_not_at_source tools arguments filename other, ?_⟩
    rw [source_at_iff]
    exact fun same => different same.1.symm

theorem not_same_own {file own : Path} (fileNonempty : file ≠ []) (fileAbsent : '/' ∉ file)
    (nonempty : own ≠ []) (absent : '/' ∉ own) :
    ¬SameFile (generatedFile arguments file) (join arguments.outputDirectory own) := by
  have relative : own.head? ≠ some '/' := fun slash => absent (List.mem_of_mem_head? slash)
  intro same
  have parts := same.2
  rw [components_generated_file, components_join relative, List.append_cancel_left_eq,
    components_eq_singleton fileNonempty fileAbsent, components_eq_singleton nonempty absent]
    at parts
  cases (List.cons.inj parts).2

theorem own_files_ne {filename own : Path} (nonempty : own ≠ []) (absent : '/' ∉ own) :
    ¬SameFile (headerFile tools arguments filename) (join arguments.outputDirectory own) ∧
      ¬SameFile (sourceFile tools arguments filename) (join arguments.outputDirectory own) :=
  ⟨not_same_own arguments (by simp) (slash_not_mem_header tools filename) nonempty absent,
    not_same_own arguments (by simp) (slash_not_mem_source tools filename) nonempty absent⟩

/-- The module's own files lie beside `generated`, not in it. -/
theorem module_path_ne {file : Path} (absent : '/' ∉ file) (name : Path) :
    join arguments.outputDirectory file ≠ generatePath arguments ++ '/' :: name := by
  have relative : file.head? ≠ some '/' := fun slash => absent (List.mem_of_mem_head? slash)
  intro same
  rw [join, if_neg relative, generatePath, List.append_assoc] at same
  split_ifs at same
  · have inside := List.append_cancel_left same
    exact absent (by simp [inside])
  · have inside := (List.cons.inj (List.append_cancel_left same)).2
    exact absent (by simp [inside])

theorem module_texts_relative (name : Text) :
    ∀ text ∈ moduleTexts tools arguments name, '/' ∉ text.1 := by
  intro text member
  simp only [moduleTexts, List.mem_cons, List.not_mem_nil, or_false] at member
  rcases member with rfl | rfl | rfl | rfl | rfl <;> simp

theorem module_texts_nonempty (name : Text) :
    ∀ text ∈ moduleTexts tools arguments name, text.1 ≠ [] := by
  intro text member
  simp only [moduleTexts, List.mem_cons, List.not_mem_nil, or_false] at member
  rcases member with rfl | rfl | rfl | rfl | rfl <;> simp

end Paths

section Runs

variable {Parsed Options : Type} {tools : Toolchain Parsed Options} {disk : Disk}
  {arguments : Arguments Options}

theorem generate_each_paths {filenames : List Path} {writes : List Write}
    (generated : generateEach tools disk arguments filenames = some writes) :
    ∀ write ∈ writes, ∃ filename ∈ filenames,
      write.path = headerPath tools arguments filename ∨
        write.path = sourcePath tools arguments filename := by
  induction filenames generalizing writes with
  | nil =>
      cases generated
      simp
  | cons filename rest ih =>
      obtain ⟨fileWrites, later, file, others, rfl⟩ := generate_each_cons generated
      obtain ⟨header, source, _, rfl⟩ := generate_file_eq_some file
      intro write member
      rcases List.mem_append.mp member with own | behind
      · refine ⟨filename, List.mem_cons_self, ?_⟩
        rcases List.mem_pair.mp own with rfl | rfl
        · exact Or.inl rfl
        · exact Or.inr rfl
      · obtain ⟨other, inside, path⟩ := ih others write behind
        exact ⟨other, List.mem_cons_of_mem _ inside, path⟩

theorem module_write_path {name : Text} {write : Write}
    (member : write ∈ (moduleTexts tools arguments name).map fun text =>
      ⟨join arguments.outputDirectory text.1, text.2⟩) :
    ∃ own, own ≠ [] ∧ '/' ∉ own ∧ write.path = join arguments.outputDirectory own := by
  obtain ⟨text, inside, rfl⟩ := List.mem_map.mp member
  exact ⟨text.1, module_texts_nonempty tools arguments _ text inside,
    module_texts_relative tools arguments _ text inside, rfl⟩

theorem later_files_ne {later : List Path} {writes : List Write} {filename : Path}
    (generated : generateEach tools disk arguments later = some writes)
    (names : ∀ other ∈ later, generatedName tools other ≠ generatedName tools filename) :
    ∀ write ∈ writes, ¬SameFile (headerFile tools arguments filename) write.path ∧
      ¬SameFile (sourceFile tools arguments filename) write.path := by
  intro write member
  obtain ⟨other, inside, path⟩ := generate_each_paths generated write member
  exact other_files_ne (names other inside) path

/-- The writes of a returned call around those of one input file. -/
theorem generate_files_at {writes : List Write}
    (returned : generateFiles tools disk arguments = some writes) {earlier later : List Path}
    {filename : Path} (split : arguments.infiles = earlier ++ filename :: later) :
    ∃ header source earlierWrites laterWrites moduleWrites,
      generatedTexts tools arguments filename = some (header, source) ∧
      generateEach tools disk arguments later = some laterWrites ∧
      (∀ write ∈ moduleWrites, ∃ own, own ≠ [] ∧ '/' ∉ own ∧
        write.path = join arguments.outputDirectory own) ∧
      writes = earlierWrites ++ ⟨headerPath tools arguments filename, header⟩ ::
        ⟨sourcePath tools arguments filename, source⟩ :: (laterWrites ++ moduleWrites) := by
  obtain ⟨first, rest, generated, _, each, rfl⟩ := generate_files_eq_some returned
  rw [split] at each
  obtain ⟨earlierWrites, _, _, behind, rfl⟩ := generate_each_append each
  obtain ⟨fileWrites, laterWrites, own, others, rfl⟩ := generate_each_cons behind
  obtain ⟨header, source, texts, rfl⟩ := generate_file_eq_some own
  exact ⟨header, source, earlierWrites, laterWrites, _, texts, others,
    fun write member => module_write_path member, List.append_assoc _ _ _⟩

theorem texts_kept_of_names {writes : List Write}
    (returned : generateFiles tools disk arguments = some writes) {earlier later : List Path}
    {filename : Path} (split : arguments.infiles = earlier ++ filename :: later)
    (given : arguments.outputDirectory ≠ [])
    (names : ∀ other ∈ later, generatedName tools other ≠ generatedName tools filename) :
    TextsKept tools disk arguments writes filename later := by
  obtain ⟨header, source, earlierWrites, laterWrites, moduleWrites, texts, others, own, rfl⟩ :=
    generate_files_at returned split
  have behind : ∀ write ∈ laterWrites ++ moduleWrites,
      ¬SameFile (headerFile tools arguments filename) write.path ∧
        ¬SameFile (sourceFile tools arguments filename) write.path := by
    intro write member
    rcases List.mem_append.mp member with generated | module
    · exact later_files_ne others names write generated
    · obtain ⟨file, nonempty, absent, path⟩ := own write module
      rw [path]
      exact own_files_ne tools arguments nonempty absent
  constructor
  · intro keptHeader keptSource same
    rw [texts] at same
    cases same
    constructor
    · refine ⟨earlierWrites, _, _, rfl, rfl,
        (header_at_iff tools arguments _ _).mpr ⟨rfl, given⟩, ?_⟩
      intro write member
      rcases List.mem_cons.mp member with rfl | afterwards
      · exact header_not_at_source tools arguments filename filename
      · exact (behind write afterwards).1
    · refine ⟨earlierWrites ++ [⟨headerPath tools arguments filename, header⟩], _, _,
        (List.append_assoc _ [_] _).symm, rfl,
        (source_at_iff tools arguments _ _).mpr ⟨rfl, given⟩, ?_⟩
      exact fun write member => (behind write member).2
  · intro other inside otherWrites file write member
    obtain ⟨_, _, _, rfl⟩ := generate_file_eq_some file
    apply other_files_ne (names other inside)
    rcases List.mem_pair.mp member with rfl | rfl
    · exact Or.inl rfl
    · exact Or.inr rfl

theorem names_differ_of_kept {writes : List Write}
    (returned : generateFiles tools disk arguments = some writes) {earlier later : List Path}
    {filename : Path} (split : arguments.infiles = earlier ++ filename :: later)
    (given : arguments.outputDirectory ≠ [])
    (kept : TextsKept tools disk arguments writes filename later) :
    ∀ other ∈ later, generatedName tools other ≠ generatedName tools filename := by
  intro other inside same
  obtain ⟨between, rest, rfl⟩ := List.append_of_mem inside
  have whole : arguments.infiles = (earlier ++ filename :: between) ++ other :: rest := by
    rw [split, List.append_assoc, List.cons_append]
  obtain ⟨first, _, generated, _, each, _⟩ := generate_files_eq_some returned
  rw [whole] at each
  obtain ⟨_, _, _, behind, _⟩ := generate_each_append each
  obtain ⟨fileWrites, _, own, _, _⟩ := generate_each_cons behind
  have unreplaced := kept.unreplaced other inside fileWrites own
  obtain ⟨header, source, _, rfl⟩ := generate_file_eq_some own
  apply (unreplaced _ List.mem_cons_self).1
  exact (header_at_iff tools arguments filename other).mpr ⟨same.symm, given⟩

/-- A header where it belongs was written below a named directory. -/
theorem directory_given_of_written {writes : List Write}
    (returned : generateFiles tools disk arguments = some writes) {filename : Path} {text : Text}
    (written : LastWritten writes (headerFile tools arguments filename) text) :
    arguments.outputDirectory ≠ [] := by
  obtain ⟨earlier, last, later, split, _, same, _⟩ := written
  obtain ⟨first, rest, generated, _, each, whole⟩ := generate_files_eq_some returned
  have member : last ∈ writes := split ▸ List.mem_append_right _ List.mem_cons_self
  rw [whole] at member
  rcases List.mem_append.mp member with own | module
  · obtain ⟨other, _, header | source⟩ := generate_each_paths each _ own
    · rw [header, header_at_iff] at same
      exact same.2
    · rw [source] at same
      exact absurd same (header_not_at_source tools arguments filename other)
  · obtain ⟨file, nonempty, absent, target⟩ := module_write_path module
    rw [target] at same
    exact absurd same (own_files_ne tools arguments nonempty absent).1

end Runs

/-- Names of which none comes again later are pairwise distinct. -/
theorem nodup_map_of_later {Item Name : Type} (name : Item → Name) {items : List Item}
    (fresh : ∀ earlier item later, items = earlier ++ item :: later →
      ∀ other ∈ later, name other ≠ name item) : (items.map name).Nodup := by
  induction items with
  | nil => exact List.nodup_nil
  | cons item rest ih =>
      rw [List.map_cons, List.nodup_cons]
      constructor
      · intro member
        obtain ⟨other, inside, same⟩ := List.mem_map.mp member
        exact fresh [] item rest rfl other inside same
      · apply ih
        intro earlier next later split
        exact fresh (item :: earlier) next later (by rw [split]; rfl)

section Names

variable {Parsed Options : Type} {tools : Toolchain Parsed Options} {disk : Disk}
  {arguments : Arguments Options}

/-- Every input file keeps its generated files exactly when the output directory
is named and no two input files have the same generated name. -/
theorem all_texts_kept_iff {writes : List Write}
    (returned : generateFiles tools disk arguments = some writes) :
    AllTextsKept tools disk arguments writes ↔
      arguments.outputDirectory ≠ [] ∧ (arguments.infiles.map (generatedName tools)).Nodup := by
  constructor
  · intro kept
    obtain ⟨first, rest, _, start, _, _⟩ := generate_files_eq_some returned
    have whole : arguments.infiles = [] ++ first :: rest := start
    obtain ⟨header, source, _, _, _, texts, _⟩ := generate_files_at returned whole
    have written := ((kept [] first rest whole).hold header source texts).1
    have given := directory_given_of_written returned written
    refine ⟨given, nodup_map_of_later _ ?_⟩
    intro earlier filename later split
    exact names_differ_of_kept returned split given (kept earlier filename later split)
  · rintro ⟨given, distinct⟩ earlier filename later split
    apply texts_kept_of_names returned split given
    intro other inside same
    rw [split, List.map_append, List.map_cons] at distinct
    have fresh := (List.nodup_cons.mp (List.nodup_append.mp distinct).2.1).1
    exact fresh (List.mem_map.mpr ⟨other, inside, same⟩)

end Names

section Samples

def twoFiles (first second : String) : Arguments Unit where
  infiles := [first.toList, second.toList]
  importPaths := []
  outputDirectory := ".".toList
  options := ()
  moduleType := .netfilter

theorem all_texts_kept_two_files :
    ∃ writes,
      generateFiles echoTools openDisk (twoFiles "a/foo.proto" "a/Bar.proto") = some writes ∧
      AllTextsKept echoTools openDisk (twoFiles "a/foo.proto" "a/Bar.proto") writes := by
  refine ⟨_, rfl, ?_⟩
  exact (all_texts_kept_iff rfl).mpr ⟨by simp [twoFiles], by decide +kernel⟩

/-- Two directories, one base name: the first file's source is the second's. -/
theorem same_base_name_replaced :
    ∃ writes,
      generateFiles echoTools openDisk (twoFiles "a/foo.proto" "b/foo.proto") = some writes ∧
      files (fun _ => none) writes "./generated/foo.c".toList = some "b/foo.proto".toList ∧
      ¬AllTextsKept echoTools openDisk (twoFiles "a/foo.proto" "b/foo.proto") writes := by
  refine ⟨_, rfl, by decide +kernel, ?_⟩
  intro kept
  have split : (twoFiles "a/foo.proto" "b/foo.proto").infiles =
      [] ++ "a/foo.proto".toList :: ["b/foo.proto".toList] := rfl
  have first := kept [] _ _ split
  exact names_differ_of_kept rfl split (by simp [twoFiles]) first _ List.mem_cons_self
    (by decide +kernel)

end Samples

end ProtobufLkm.GeneratedTexts
