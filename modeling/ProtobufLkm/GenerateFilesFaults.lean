import ProtobufLkm.GeneratedTexts
import ProtobufLkm.InterruptedWrites

/-!
# Calls of `generate_files` that fail

An exception ends the call wherever it is raised, and nothing is removed again.
A directory or a file may not be writable, an input file may not parse, and a
text may arrive only in part. All of this may change from one call to the next.
-/

namespace ProtobufLkm.GenerateFilesFaults

open PosixPath FileWrites InterruptedWrites GenerateFiles GeneratedTexts

set_option autoImplicit false

/-- What the file system does may depend on what was written before. An
interrupted write leaves so many characters of its text. -/
structure Storage where
  makedirs : Path → Bool
  opens : List Write → Path → Bool
  interrupts : List Write → Path → Option Nat

section Calls

variable {Parsed Options : Type} (tools : Toolchain Parsed Options) (storage : Storage)
  (arguments : Arguments Options)

def writeText (path : Path) (text : Text) : Procedure Path Text := fun earlier =>
  if storage.opens earlier path then
    match storage.interrupts earlier path with
    | none => ⟨[⟨path, text⟩], true⟩
    | some arrived => ⟨[⟨path, text.take arrived⟩], false⟩
  else failed

/-- One round of the loop over `infiles`. -/
def attemptFile (filename : Path) : Procedure Path Text :=
  match generatedTexts tools arguments filename with
  | none => fun _ => failed
  | some (header, source) =>
      (writeText storage (headerPath tools arguments filename) header).andThen
        (writeText storage (sourcePath tools arguments filename) source)

def attemptEach : List Path → Procedure Path Text
  | [] => fun _ => done
  | filename :: rest => (attemptFile tools storage arguments filename).andThen (attemptEach rest)

def attemptTexts : List (Path × Text) → Procedure Path Text
  | [] => fun _ => done
  | (file, text) :: rest =>
      (writeText storage (join arguments.outputDirectory file) text).andThen (attemptTexts rest)

def attemptModule : Procedure Path Text :=
  match arguments.infiles.head? with
  | none => fun _ => failed
  | some first =>
      attemptTexts storage arguments (moduleTexts tools arguments (generatedName tools first))

def attemptFiles : Attempt Path Text :=
  if storage.makedirs (generatePath arguments) then
    (attemptEach tools storage arguments arguments.infiles).andThen
      (attemptModule tools storage arguments) []
  else failed

/-- Storage on which only directories and files that cannot be opened fail. -/
def steady (disk : Disk) : Storage where
  makedirs := disk.makedirs
  opens _ := disk.opens
  interrupts _ _ := none

end Calls

section Refinement

variable {Parsed Options : Type} {tools : Toolchain Parsed Options} {storage : Storage}
  {arguments : Arguments Options} {disk : Disk}

theorem write_text_follows (path : Path) (text : Text) (earlier : List Write) :
    Follows List.IsPrefix [⟨path, text⟩] (writeText storage path text earlier) := by
  rw [writeText]
  split_ifs
  · cases storage.interrupts earlier path with
    | none => exact .complete _
    | some arrived => exact .cut [] [] ⟨path, text⟩ _ (List.take_prefix arrived text)
  · exact follows_failed _

theorem write_text_steady {path : Path} {text : Text} {write : Write}
    (opened : writeFile disk path text = some write) (earlier : List Write) :
    writeText (steady disk) path text earlier = ⟨[⟨path, text⟩], true⟩ := by
  rw [writeFile] at opened
  split_ifs at opened with allowed
  rw [writeText, steady, if_pos allowed]

theorem attempt_texts_follows (texts : List (Path × Text)) (earlier : List Write) :
    Follows List.IsPrefix (texts.map fun text => ⟨join arguments.outputDirectory text.1, text.2⟩)
      (attemptTexts storage arguments texts earlier) := by
  induction texts generalizing earlier with
  | nil => exact .complete []
  | cons text rest ih => exact follows_procedure (write_text_follows _ _) ih earlier

theorem attempt_file_follows {filename : Path} {header source : Text}
    (texts : generatedTexts tools arguments filename = some (header, source))
    (earlier : List Write) :
    Follows List.IsPrefix [⟨headerPath tools arguments filename, header⟩,
      ⟨sourcePath tools arguments filename, source⟩]
      (attemptFile tools storage arguments filename earlier) := by
  rw [attemptFile, texts]
  exact follows_procedure (write_text_follows _ _) (write_text_follows _ _) earlier

theorem attempt_file_returned {filename : Path} {earlier : List Write}
    (returned : (attemptFile tools storage arguments filename earlier).returned = true) :
    generateFile tools openDisk arguments filename =
      some (attemptFile tools storage arguments filename earlier).writes := by
  cases texts : generatedTexts tools arguments filename with
  | none =>
      rw [attemptFile, texts] at returned
      cases returned
  | some pair =>
      have whole := follows_returned (attempt_file_follows texts earlier) returned
      rw [generateFile, texts, whole]
      rfl

theorem attempt_each_returned {filenames : List Path} {earlier : List Write}
    (returned : (attemptEach tools storage arguments filenames earlier).returned = true) :
    generateEach tools openDisk arguments filenames =
      some (attemptEach tools storage arguments filenames earlier).writes := by
  induction filenames generalizing earlier with
  | nil => rfl
  | cons filename rest ih =>
      rw [attemptEach] at returned ⊢
      obtain ⟨own, behind⟩ := and_then_returned returned
      rw [and_then_went_on own, generateEach, attempt_file_returned own, ih behind]
      rfl

theorem write_module_open (texts : List (Path × Text)) :
    writeModule openDisk arguments texts =
      some (texts.map fun text => ⟨join arguments.outputDirectory text.1, text.2⟩) := by
  induction texts with
  | nil => rfl
  | cons text rest ih =>
      rw [writeModule, ih]
      rfl

theorem generate_files_open {first : Path} {rest : List Path} {generated : List Write}
    (split : arguments.infiles = first :: rest)
    (each : generateEach tools openDisk arguments arguments.infiles = some generated) :
    generateFiles tools openDisk arguments =
      some (generated ++ (moduleTexts tools arguments (generatedName tools first)).map fun text =>
        ⟨join arguments.outputDirectory text.1, text.2⟩) := by
  have anywhere : openDisk.makedirs (generatePath arguments) = true := rfl
  rw [generateFiles, if_pos anywhere, each, split]
  simp [write_module_open]

theorem attempt_module_follows {first : Path} {rest : List Path}
    (split : arguments.infiles = first :: rest) (earlier : List Write) :
    Follows List.IsPrefix ((moduleTexts tools arguments (generatedName tools first)).map fun text =>
        ⟨join arguments.outputDirectory text.1, text.2⟩)
      (attemptModule tools storage arguments earlier) := by
  rw [attemptModule, split]
  exact attempt_texts_follows _ earlier

theorem attempt_module_returned {earlier : List Write}
    (returned : (attemptModule tools storage arguments earlier).returned = true) :
    ∃ first rest, arguments.infiles = first :: rest := by
  rw [attemptModule] at returned
  cases given : arguments.infiles with
  | nil =>
      rw [given] at returned
      cases returned
  | cons first rest => exact ⟨first, rest, rfl⟩

/-- A call that returned has written the texts of `generateFiles`, in its order. -/
theorem attempt_files_returned
    (returned : (attemptFiles tools storage arguments).returned = true) :
    generateFiles tools openDisk arguments =
      some (attemptFiles tools storage arguments).writes := by
  rw [attemptFiles] at returned ⊢
  split_ifs at returned ⊢
  · obtain ⟨each, module⟩ := and_then_returned returned
    obtain ⟨first, rest, split⟩ := attempt_module_returned module
    rw [and_then_went_on each, follows_returned (attempt_module_follows split _) module]
    exact generate_files_open split (attempt_each_returned each)
  · cases returned

theorem attempt_file_steady {filename : Path} {writes : List Write}
    (generated : generateFile tools disk arguments filename = some writes)
    (earlier : List Write) :
    attemptFile tools (steady disk) arguments filename earlier = ⟨writes, true⟩ := by
  obtain ⟨header, source, texts, rfl⟩ := generate_file_eq_some generated
  rw [generateFile, texts] at generated
  simp only [Option.bind_eq_bind, Option.bind_some, Option.bind_eq_some_iff] at generated
  obtain ⟨headerWrite, headerOpened, sourceWrite, sourceOpened, _⟩ := generated
  rw [attemptFile, texts]
  exact and_then_done (write_text_steady headerOpened earlier) (write_text_steady sourceOpened _)

theorem attempt_each_steady {filenames : List Path} {writes : List Write}
    (generated : generateEach tools disk arguments filenames = some writes)
    (earlier : List Write) :
    attemptEach tools (steady disk) arguments filenames earlier = ⟨writes, true⟩ := by
  induction filenames generalizing writes earlier with
  | nil =>
      cases generated
      rfl
  | cons filename rest ih =>
      obtain ⟨fileWrites, later, file, others, rfl⟩ := generate_each_cons generated
      exact and_then_done (attempt_file_steady file earlier) (ih others _)

theorem attempt_texts_steady {texts : List (Path × Text)} {writes : List Write}
    (written : writeModule disk arguments texts = some writes) (earlier : List Write) :
    attemptTexts (steady disk) arguments texts earlier = ⟨writes, true⟩ := by
  induction texts generalizing writes earlier with
  | nil =>
      cases written
      rfl
  | cons text rest ih =>
      rw [writeModule, Option.bind_eq_bind, Option.bind_eq_some_iff] at written
      obtain ⟨write, opened, written⟩ := written
      obtain ⟨later, others, split⟩ := Option.bind_eq_some_iff.mp written
      cases split
      rw [write_file_eq_some opened]
      exact and_then_done (write_text_steady opened earlier) (ih others _)

/-- Without interrupted writes the call is `generateFiles`. -/
theorem attempt_files_steady {writes : List Write}
    (returned : generateFiles tools disk arguments = some writes) :
    attemptFiles tools (steady disk) arguments = ⟨writes, true⟩ := by
  rw [generateFiles] at returned
  split_ifs at returned with directory
  simp only [Option.bind_eq_bind, Option.bind_eq_some_iff, Option.some.injEq] at returned
  obtain ⟨generated, each, first, head, moduleWrites, written, rfl⟩ := returned
  rw [attemptFiles, steady, if_pos directory]
  apply and_then_done (attempt_each_steady each [])
  rw [attemptModule, head]
  exact attempt_texts_steady written _

end Refinement

section Targets

variable {Parsed Options : Type}

def moduleFiles : List Path :=
  [".gitignore".toList, "protobuf_lkm.c".toList, "protobuf_lkm.h".toList, "main.c".toList,
    "Makefile".toList]

/-- The header or the source of an input file. -/
def GeneratedTarget (tools : Toolchain Parsed Options) (arguments : Arguments Options)
    (path : Path) : Prop :=
  ∃ filename ∈ arguments.infiles,
    path = headerPath tools arguments filename ∨ path = sourcePath tools arguments filename

def ModuleTarget (arguments : Arguments Options) (path : Path) : Prop :=
  ∃ file ∈ moduleFiles, path = join arguments.outputDirectory file

/-- The files a call is there to write. -/
def Target (tools : Toolchain Parsed Options) (arguments : Arguments Options) (path : Path) :
    Prop :=
  GeneratedTarget tools arguments path ∨ ModuleTarget arguments path

variable {tools again : Toolchain Parsed Options} {storage : Storage}
  {arguments rerun : Arguments Options} {disk : Disk}

theorem module_texts_files (tools : Toolchain Parsed Options) (arguments : Arguments Options)
    (name : Text) : (moduleTexts tools arguments name).map Prod.fst = moduleFiles :=
  rfl

theorem attempt_file_within {filename : Path} (given : filename ∈ arguments.infiles) :
    Within (GeneratedTarget tools arguments) (attemptFile tools storage arguments filename) := by
  cases texts : generatedTexts tools arguments filename with
  | none =>
      rw [attemptFile, texts]
      exact within_failed _
  | some pair =>
      refine follows_within (attempt_file_follows texts) ?_
      intro write member
      rcases List.mem_pair.mp member with rfl | rfl
      · exact ⟨filename, given, Or.inl rfl⟩
      · exact ⟨filename, given, Or.inr rfl⟩

theorem attempt_each_within {filenames : List Path}
    (given : ∀ filename ∈ filenames, filename ∈ arguments.infiles) :
    Within (GeneratedTarget tools arguments) (attemptEach tools storage arguments filenames) := by
  induction filenames with
  | nil => exact within_done _
  | cons filename rest ih =>
      apply within_and_then
      · exact attempt_file_within (given filename List.mem_cons_self)
      · exact ih fun other member => given other (List.mem_cons_of_mem _ member)

theorem attempt_module_within :
    Within (ModuleTarget arguments) (attemptModule tools storage arguments) := by
  cases split : arguments.infiles with
  | nil =>
      rw [attemptModule, split]
      exact within_failed _
  | cons first rest =>
      refine follows_within (attempt_module_follows split) ?_
      intro write member
      obtain ⟨text, inside, rfl⟩ := List.mem_map.mp member
      refine ⟨text.1, ?_, rfl⟩
      rw [← module_texts_files tools arguments (generatedName tools first)]
      exact List.mem_map_of_mem inside

theorem attempt_files_targets :
    ∀ write ∈ (attemptFiles tools storage arguments).writes, Target tools arguments write.path := by
  rw [attemptFiles]
  split_ifs
  · apply within_and_then
    · exact within_mono (attempt_each_within fun _ given => given) fun _ => Or.inl
    · exact within_mono attempt_module_within fun _ => Or.inr
  · intro write absent
    cases absent

theorem generated_each_covered {filenames : List Path} {writes : List Write}
    (generated : generateEach tools disk arguments filenames = some writes) {filename : Path}
    (member : filename ∈ filenames) :
    (∃ write ∈ writes, write.path = headerPath tools arguments filename) ∧
      ∃ write ∈ writes, write.path = sourcePath tools arguments filename := by
  induction filenames generalizing writes with
  | nil => cases member
  | cons next rest ih =>
      obtain ⟨fileWrites, later, file, others, rfl⟩ := generate_each_cons generated
      rcases List.mem_cons.mp member with rfl | behind
      · obtain ⟨header, source, _, rfl⟩ := generate_file_eq_some file
        simp
      · obtain ⟨⟨header, own, headerPath⟩, source, beside, sourcePath⟩ := ih others behind
        exact ⟨⟨header, List.mem_append_right _ own, headerPath⟩,
          source, List.mem_append_right _ beside, sourcePath⟩

/-- A call that returns has written all of them. -/
theorem generate_files_covers {writes : List Write}
    (returned : generateFiles tools disk arguments = some writes) {path : Path}
    (target : Target tools arguments path) : ∃ write ∈ writes, write.path = path := by
  obtain ⟨first, rest, generated, split, each, rfl⟩ := generate_files_eq_some returned
  rcases target with ⟨filename, given, rfl | rfl⟩ | ⟨file, member, rfl⟩
  · obtain ⟨write, member, same⟩ := (generated_each_covered each given).1
    exact ⟨write, List.mem_append_left _ member, same⟩
  · obtain ⟨write, member, same⟩ := (generated_each_covered each given).2
    exact ⟨write, List.mem_append_left _ member, same⟩
  · rw [← module_texts_files tools arguments (generatedName tools first)] at member
    obtain ⟨text, inside, rfl⟩ := List.mem_map.mp member
    exact ⟨_, List.mem_append_right _ (List.mem_map_of_mem inside), rfl⟩

theorem same_targets (names : again.camelToSnakeCase = tools.camelToSnakeCase)
    (infiles : rerun.infiles = arguments.infiles)
    (directory : rerun.outputDirectory = arguments.outputDirectory) {path : Path}
    (target : Target tools arguments path) : Target again rerun path := by
  have generated : ∀ filename, generatedName again filename = generatedName tools filename :=
    fun filename => by rw [generatedName, generatedName, names]
  rcases target with ⟨filename, given, own⟩ | ⟨file, member, rfl⟩
  · refine Or.inl ⟨filename, infiles.symm ▸ given, ?_⟩
    rw [headerPath, sourcePath, generated, generatePath, directory]
    exact own
  · exact Or.inr ⟨file, member, by rw [directory]⟩

/-- Whatever an earlier call left, perhaps of other texts, options and another
module type, nothing of it stays behind a call that returns. -/
theorem rerun_leaves_nothing (names : again.camelToSnakeCase = tools.camelToSnakeCase)
    (infiles : rerun.infiles = arguments.infiles)
    (directory : rerun.outputDirectory = arguments.outputDirectory) {later : Storage}
    (returned : (attemptFiles again later rerun).returned = true)
    (before : Path → Option Text) :
    files (files before (attemptFiles tools storage arguments).writes)
        (attemptFiles again later rerun).writes =
      files before (attemptFiles again later rerun).writes := by
  apply files_rewritten
  intro write member
  apply generate_files_covers (attempt_files_returned returned)
  exact same_targets names infiles directory (attempt_files_targets write member)

/-- So many complete writes fit, and a little of the next. -/
def fullAfter (count arrived : Nat) : Storage where
  makedirs _ := true
  opens _ _ := true
  interrupts earlier _ := if earlier.length < count then none else some arrived

theorem rerun_leaves_nothing_full_disk :
    (attemptFiles echoTools (fullAfter 1 3) (twoFiles "foo.proto" "bar.proto")).returned = false ∧
      (attemptFiles echoTools (steady openDisk) (twoFiles "foo.proto" "bar.proto")).returned = true ∧
      files (files (fun _ => none)
          (attemptFiles echoTools (fullAfter 1 3) (twoFiles "foo.proto" "bar.proto")).writes)
          (attemptFiles echoTools (steady openDisk) (twoFiles "foo.proto" "bar.proto")).writes =
        files (fun _ => none)
          (attemptFiles echoTools (steady openDisk) (twoFiles "foo.proto" "bar.proto")).writes :=
  ⟨rfl, rfl, rerun_leaves_nothing rfl rfl rfl rfl _⟩

end Targets

section Commit

variable {Parsed Options : Type} (tools : Toolchain Parsed Options) (storage : Storage)
  (arguments : Arguments Options)

def makefilePath : Path := join arguments.outputDirectory "Makefile".toList

theorem makefile_path_ne (name : Path) :
    makefilePath arguments ≠ generatePath arguments ++ '/' :: name :=
  module_path_ne arguments (by simp : '/' ∉ "Makefile".toList) name

variable {tools arguments} in
theorem makefile_path_ne_generated {path : Path} (target : GeneratedTarget tools arguments path) :
    path ≠ makefilePath arguments := by
  obtain ⟨filename, _, rfl | rfl⟩ := target
  · rw [header_path_eq]
    exact (makefile_path_ne arguments _).symm
  · rw [source_path_eq]
    exact (makefile_path_ne arguments _).symm

theorem attempt_each_untouched :
    ∀ write ∈ (attemptEach tools storage arguments arguments.infiles []).writes,
      write.path ≠ makefilePath arguments := by
  intro write member
  have within : Within (GeneratedTarget tools arguments)
      (attemptEach tools storage arguments arguments.infiles) :=
    attempt_each_within fun _ given => given
  exact makefile_path_ne_generated (within [] write member)

/-- The module's files in front of its `Makefile`. -/
def beforeMakefile (name : Text) : List Write :=
  ((moduleTexts tools arguments name).take 4).map fun text =>
    ⟨join arguments.outputDirectory text.1, text.2⟩

def makefileWrite (name : Text) : Write :=
  ⟨makefilePath arguments, makefile (moduleName arguments.moduleType name) name
    (insmodExtra arguments.moduleType)⟩

theorem module_writes_split (name : Text) :
    ((moduleTexts tools arguments name).map fun text =>
        (⟨join arguments.outputDirectory text.1, text.2⟩ : Write)) =
      beforeMakefile tools arguments name ++ [makefileWrite arguments name] :=
  rfl

theorem before_makefile_ne (name : Text) :
    ∀ write ∈ beforeMakefile tools arguments name, write.path ≠ makefilePath arguments := by
  intro write member same
  obtain ⟨text, inside, rfl⟩ := List.mem_map.mp member
  have makefileRelative : "Makefile".toList.head? ≠ some '/' := by simp
  have others : text.1.head? ≠ some '/' ∧ text.1 ≠ "Makefile".toList := by
    simp only [moduleTexts, List.take_succ_cons, List.take_zero, List.mem_cons,
      List.not_mem_nil, or_false] at inside
    rcases inside with rfl | rfl | rfl | rfl <;> simp
  exact others.2 (join_cancel others.1 makefileRelative same)

theorem attempt_module_cases (earlier : List Write) :
    (∀ write ∈ (attemptModule tools storage arguments earlier).writes,
        write.path ≠ makefilePath arguments) ∨
      ∃ first rest content, arguments.infiles = first :: rest ∧
        (attemptModule tools storage arguments earlier).writes =
          beforeMakefile tools arguments (generatedName tools first) ++
            [⟨makefilePath arguments, content⟩] := by
  cases split : arguments.infiles with
  | nil =>
      apply Or.inl
      rw [attemptModule, split]
      intro write absent
      cases absent
  | cons first rest =>
      have follows : Follows List.IsPrefix _ (attemptModule tools storage arguments earlier) :=
        attempt_module_follows split earlier
      rw [module_writes_split] at follows
      rcases follows_last follows (before_makefile_ne tools arguments _) with
        untouched | ⟨content, written⟩
      · exact Or.inl untouched
      · exact Or.inr ⟨first, rest, content, rfl, written⟩

theorem files_other_last {before : Path → Option Text} {writes : List Write} {last : Write}
    {path : Path} (other : path ≠ last.path) :
    files before (writes ++ [last]) path = files before writes path := by
  rw [files_append]
  apply files_untouched
  intro write member
  rw [List.mem_singleton.mp member]
  exact other.symm

/-- Wherever a call ends, a changed `Makefile` means that all input files were
parsed and all other files are complete. -/
theorem makefile_written_last (before : Path → Option Text) :
    files before (attemptFiles tools storage arguments).writes (makefilePath arguments) =
        before (makefilePath arguments) ∨
      ∃ writes, generateFiles tools openDisk arguments = some writes ∧
        ∀ path, path ≠ makefilePath arguments →
          files before (attemptFiles tools storage arguments).writes path =
            files before writes path := by
  have eachUntouched := attempt_each_untouched tools storage arguments
  rw [attemptFiles]
  split_ifs
  · cases each : (attemptEach tools storage arguments arguments.infiles []).returned with
    | false =>
        rw [and_then_stopped each]
        exact Or.inl (files_untouched eachUntouched before)
    | true =>
        rw [and_then_went_on each]
        rcases attempt_module_cases tools storage arguments _ with
          untouched | ⟨first, rest, content, split, written⟩
        · apply Or.inl
          apply files_untouched
          intro write member
          rcases List.mem_append.mp member with generated | module
          · exact eachUntouched write generated
          · exact untouched write module
        · refine Or.inr ⟨_, generate_files_open split (attempt_each_returned each), ?_⟩
          intro path other
          rw [written, module_writes_split, ← List.append_assoc, ← List.append_assoc]
          rw [files_other_last other]
          exact (files_other_last other).symm
  · exact Or.inl rfl

end Commit

section Confinement

/-- The path names a file below the directory. -/
def Below (directory path : Path) : Prop :=
  (path.head? = some '/' ↔ directory.head? = some '/') ∧
    ∃ parts, parts ≠ [] ∧ "..".toList ∉ parts ∧ components path = components directory ++ parts

theorem below_of_components {directory path : Path} {parts : List Path}
    (anchored : path.head? = directory.head?) (nonempty : parts ≠ [])
    (plain : ∀ part ∈ parts, part.getLast? ≠ some '.')
    (split : components path = components directory ++ parts) : Below directory path := by
  refine ⟨by rw [anchored], parts, nonempty, ?_, split⟩
  intro upward
  exact plain _ upward (by simp)

variable {Parsed Options : Type} {tools : Toolchain Parsed Options} {storage : Storage}
  {arguments : Arguments Options}

theorem below_generated (given : arguments.outputDirectory ≠ []) {name : Path} {last : Char}
    (absent : '/' ∉ name) (ends : name.getLast? = some last) (plain : last ≠ '.') :
    Below arguments.outputDirectory (join (generatePath arguments) name) := by
  have nonempty : name ≠ [] := by
    intro empty
    rw [empty] at ends
    cases ends
  apply below_of_components _ _ _ (components_generated nonempty absent)
  · rw [generated_path_eq arguments absent, generatePath, List.append_assoc]
    exact List.head?_append_of_ne_nil _ given
  · exact List.cons_ne_nil _ _
  · intro part member
    rcases List.mem_pair.mp member with rfl | rfl
    · simp
    · rw [ends]
      exact fun same => plain (Option.some.inj same)

theorem below_module (given : arguments.outputDirectory ≠ []) {file : Path}
    (member : file ∈ moduleFiles) :
    Below arguments.outputDirectory (join arguments.outputDirectory file) := by
  have shape : file.head? ≠ some '/' ∧ file ≠ [] ∧ '/' ∉ file ∧ file.getLast? ≠ some '.' := by
    simp only [moduleFiles, List.mem_cons, List.not_mem_nil, or_false] at member
    rcases member with rfl | rfl | rfl | rfl | rfl <;> simp
  obtain ⟨relative, nonempty, absent, plain⟩ := shape
  apply below_of_components (join_head relative given) (List.cons_ne_nil file [])
  · intro part own
    rw [List.mem_singleton.mp own]
    exact plain
  · rw [components_join relative, components_eq_singleton nonempty absent]

/-- No input file name leads out of the output directory. -/
theorem writes_stay_below (given : arguments.outputDirectory ≠ []) :
    ∀ write ∈ (attemptFiles tools storage arguments).writes,
      Below arguments.outputDirectory write.path := by
  intro write member
  rcases attempt_files_targets write member with ⟨filename, _, own | own⟩ | ⟨file, inside, own⟩
  · rw [own]
    exact below_generated given (slash_not_mem_header tools filename)
      (by simp [List.getLast?_append] : _ = some 'h') (by decide)
  · rw [own]
    exact below_generated given (by simp [slash_not_mem_generated_name tools filename])
      (by simp [List.getLast?_append] : _ = some 'c') (by decide)
  · rw [own]
    exact below_module given inside

theorem writes_stay_below_full_disk :
    "out".toList ≠ [] ∧
      ∀ write ∈ (attemptFiles echoTools (fullAfter 1 3)
          { twoFiles "../foo.proto" "/etc/bar.proto" with outputDirectory := "out".toList }).writes,
        Below "out".toList write.path :=
  ⟨by simp, writes_stay_below (by simp)⟩

end Confinement

end ProtobufLkm.GenerateFilesFaults
