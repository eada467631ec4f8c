import ProtobufLkm.FileWrites
import ProtobufLkm.PosixPath

/-!
# `generate_files`

The generator writes a header and a source for every input file, and then the
files of one module whose name, include and object list come from the first
input file. What pbtools computes is a parameter, and so are the texts built
from it and the C code of the `main.c` templates below their include.
-/

namespace ProtobufLkm.GenerateFiles

open SeparatedText PosixPath FileWrites

set_option autoImplicit false

abbrev Text := List Char

inductive ModuleType where
  | netfilter
  | udpSocket
  deriving DecidableEq, Repr

/-- Without a result an exception was raised. The snake-case form of a name
contains no slash that was not in the name. -/
structure Toolchain (Parsed Options : Type) where
  parseFile : Path → List Path → Option Parsed
  generate : Text → Parsed → Text → Options → Option (Text × Text)
  camelToSnakeCase : Text → Text
  keeps_names : ∀ name, '/' ∉ name → '/' ∉ camelToSnakeCase name
  pbtoolsC : Text
  pbtoolsH : Text
  mainRest : ModuleType → Text → Text

structure Arguments (Options : Type) where
  infiles : List Path
  importPaths : List Path
  outputDirectory : Path
  options : Options
  moduleType : ModuleType

/-- Which directories can be made and which files opened for writing. -/
structure Disk where
  makedirs : Path → Bool
  opens : Path → Bool

abbrev Write := FileWrite Path Text

section Templates

def gitignoreFmt : Text :=
  ("\n# MacOS\n.DS_Store\n\n# IDEs\n**/.idea\n**/.fleet\n**/.vscode\n\n# exe\n**/main\n\n" ++
    "# LKM artifacts\n**/*.ko\n**/*.o\n**/*.o.d\n**/*.o.cmd\n**/*.mod.c\n**/*.mod\n" ++
    "**/*.mod.cmd\n**/*.ko.cmd\n**/*.cmd\n**/modules.order\n**/Module.symvers\n" ++
    "**/cmake-build-debug\n\n# keep go mod\n!**/go.mod\n").toList

/-- The lines of `main.c` in front of the include of the generated header. -/
def mainHead : ModuleType → List String
  | .netfilter => [
      "",
      "// SPDX-License-Identifier: Apache-2.0",
      "",
      "#define pr_fmt(fmt) \"%s:%s(): \" fmt, KBUILD_MODNAME, __func__",
      "",
      "#include <linux/kernel.h>",
      "#include <linux/module.h>",
      "#include <linux/init.h>",
      "#include <linux/netfilter.h>",
      "#include <linux/netfilter_ipv4.h>",
      "#include <linux/tcp.h>",
      "#include <linux/udp.h>",
      "#include <linux/ip.h>",
      "#include <linux/skbuff.h>",
      ""]
  | .udpSocket => [
      "",
      "// SPDX-License-Identifier: Apache-2.0",
      "",
      "#define pr_fmt(fmt) \"%s:%s(): \" fmt, KBUILD_MODNAME, __func__",
      "",
      "#include <linux/kernel.h>",
      "#include <linux/module.h>",
      "#include <linux/init.h>",
      "#include <linux/net.h>",
      "#include <linux/in.h>",
      "#include <linux/fs.h>",
      "#include <net/sock.h>",
      ""]

def mainC (moduleType : ModuleType) (importPath rest : Text) : Text :=
  unlines ((mainHead moduleType).map String.toList) ++
    unlines ["#include \"".toList ++ (importPath ++ ['\"'])] ++ rest

def makefileHead : List String := [
  "",
  "# 'KDIR' is the Linux 'kernel headers' package on your host system; this is",
  "# usually an x86_64, but could be anything, really (f.e. building directly",
  "# on a Raspberry Pi implies that it's the host)",
  "KDIR ?= /lib/modules/$(shell uname -r)/build",
  "",
  "PWD\t\t\t   := $(shell pwd)",
  "EXTRA_CFLAGS\t   += -DDEBUG"]

def makefileObjects (moduleName name : Text) : List Text := [
  "obj-m\t\t\t += ".toList ++ (moduleName ++ ".o".toList),
  [],
  moduleName ++ "-y\t := \\".toList,
  "\tmain.o \\".toList,
  "\tprotobuf_lkm.o \\".toList,
  "\tgenerated/".toList ++ (name ++ ".o".toList)]

def makefileRules (moduleName insmodExtra : Text) : Text :=
  ("\nall: build install load\n\nbuild:\n\t@echo\n" ++
    "\t@echo '--- Building : KDIR=$\x7bKDIR\x7d ARCH=$\x7bARCH\x7d " ++
    "CROSS_COMPILE=$\x7bCROSS_COMPILE\x7d EXTRA_CFLAGS=$\x7bEXTRA_CFLAGS\x7d ---'\n\t@echo\n\n" ++
    "\t# build\n\t$(MAKE) -C $(KDIR) M=$(PWD) modules\n\n" ++
    "install:\n\t@echo\n\t@echo \"--- Installing module ").toList ++ moduleName ++
  (" ---\"\n\t@echo\n\n\tsudo make -C $(KDIR) M=$(PWD) modules_install\n\tsudo depmod\n\n" ++
    "load:\n\t@echo\n\t@echo \"--- Loading module into the kernel ---\"\n\t@echo\n" ++
    "\tsudo insmod $(PWD)/").toList ++ moduleName ++ ".ko ".toList ++ insmodExtra ++
  ("\n\nunload:\n\t@echo\n\t@echo \"--- Removing the module from the kernel ---\"\n\t@echo\n" ++
    "\tsudo rmmod ").toList ++ moduleName ++
  ("\n\nclean:\n\t@echo\n\t@echo \"--- Cleaning ---\"\n\t@echo\n" ++
    "\t$(MAKE) -C $(KDIR) M=$(PWD) clean\n\nhelp:\n\t@echo targets:\n" ++
    "\t@echo\t   build: compile the LKM\n\t@echo\t   install: install the LKM\n" ++
    "\t@echo\t   load: load the LKM into the running Linux OS\n" ++
    "\t@echo\t   unload: remove the LKM from the Linux OS\n\t@echo\n" ++
    "\t@echo\t   help: show this message\n" ++
    "\t@echo\t   clean: clear all the files created by the compile process\n").toList

def makefile (moduleName name insmodExtra : Text) : Text :=
  unlines (makefileHead.map String.toList) ++ unlines (makefileObjects moduleName name) ++
    makefileRules moduleName insmodExtra

end Templates

section Generate

variable {Parsed Options : Type} (tools : Toolchain Parsed Options) (disk : Disk)
  (arguments : Arguments Options)

def writeFile (path : Path) (content : Text) : Option Write :=
  if disk.opens path then some ⟨path, content⟩ else none

def generatedName (filename : Path) : Text :=
  tools.camelToSnakeCase (splitextRoot (basename filename))

def generatePath : Path := arguments.outputDirectory ++ "/generated".toList

def headerPath (filename : Path) : Path :=
  join (generatePath arguments) (generatedName tools filename ++ ".h".toList)

def sourcePath (filename : Path) : Path :=
  join (generatePath arguments) (generatedName tools filename ++ ".c".toList)

/-- The header and the source generated from an input file. -/
def generatedTexts (filename : Path) : Option (Text × Text) := do
  let parsed ← tools.parseFile filename arguments.importPaths
  let name := generatedName tools filename
  tools.generate name parsed (name ++ ".h".toList) arguments.options

/-- One round of the loop over `infiles`. -/
def generateFile (filename : Path) : Option (List Write) := do
  let (header, source) ← generatedTexts tools arguments filename
  let headerWrite ← writeFile disk (headerPath tools arguments filename) header
  let sourceWrite ← writeFile disk (sourcePath tools arguments filename) source
  some [headerWrite, sourceWrite]

def generateEach : List Path → Option (List Write)
  | [] => some []
  | filename :: rest => do
      let writes ← generateFile tools disk arguments filename
      let later ← generateEach rest
      some (writes ++ later)

def moduleName (moduleType : ModuleType) (name : Text) : Text :=
  match moduleType with
  | .udpSocket => name ++ "_udp".toList
  | .netfilter => name ++ "_nf".toList

def insmodExtra : ModuleType → Text
  | .udpSocket => ['&']
  | .netfilter => []

def moduleTexts (name : Text) : List (Path × Text) :=
  let type := arguments.moduleType
  let importPath := join "generated".toList (name ++ ".h".toList)
  [(".gitignore".toList, gitignoreFmt),
    ("protobuf_lkm.c".toList, tools.pbtoolsC),
    ("protobuf_lkm.h".toList, tools.pbtoolsH),
    ("main.c".toList, mainC type importPath (tools.mainRest type (moduleName type name))),
    ("Makefile".toList, makefile (moduleName type name) name (insmodExtra type))]

def writeModule : List (Path × Text) → Option (List Write)
  | [] => some []
  | (file, text) :: rest => do
      let write ← writeFile disk (join arguments.outputDirectory file) text
      let later ← writeModule rest
      some (write :: later)

/-- An empty list of input files fails at `infiles[0]`. -/
def generateFiles : Option (List Write) :=
  if disk.makedirs (generatePath arguments) then do
    let generated ← generateEach tools disk arguments arguments.infiles
    let first ← arguments.infiles.head?
    let moduleWrites ←
      writeModule disk arguments (moduleTexts tools arguments (generatedName tools first))
    some (generated ++ moduleWrites)
  else none

end Generate

section Specifications

variable {Parsed Options : Type} {tools : Toolchain Parsed Options} {disk : Disk}
  {arguments : Arguments Options}

theorem write_file_eq_some {path : Path} {content : Text} {write : Write}
    (opened : writeFile disk path content = some write) : write = ⟨path, content⟩ := by
  rw [writeFile] at opened
  split_ifs at opened
  exact (Option.some.inj opened).symm

theorem slash_not_mem_generated_name (tools : Toolchain Parsed Options) (filename : Path) :
    '/' ∉ generatedName tools filename := by
  apply tools.keeps_names
  apply slash_not_mem_splitext_root
  exact slash_not_mem_basename filename

theorem generate_file_eq_some {filename : Path} {writes : List Write}
    (generated : generateFile tools disk arguments filename = some writes) :
    ∃ header source, generatedTexts tools arguments filename = some (header, source) ∧
      writes = [⟨headerPath tools arguments filename, header⟩,
        ⟨sourcePath tools arguments filename, source⟩] := by
  simp only [generateFile, Option.bind_eq_bind, Option.bind_eq_some_iff, Prod.exists,
    Option.some.injEq] at generated
  obtain ⟨header, source, texts, headerWrite, headerOpened, sourceWrite, sourceOpened, rfl⟩ :=
    generated
  refine ⟨header, source, texts, ?_⟩
  rw [write_file_eq_some headerOpened, write_file_eq_some sourceOpened]

theorem generate_each_cons {filename : Path} {rest : List Path} {writes : List Write}
    (generated : generateEach tools disk arguments (filename :: rest) = some writes) :
    ∃ fileWrites later, generateFile tools disk arguments filename = some fileWrites ∧
      generateEach tools disk arguments rest = some later ∧ writes = fileWrites ++ later := by
  rw [generateEach, Option.bind_eq_bind, Option.bind_eq_some_iff] at generated
  obtain ⟨fileWrites, file, generated⟩ := generated
  obtain ⟨later, others, split⟩ := Option.bind_eq_some_iff.mp generated
  exact ⟨fileWrites, later, file, others, (Option.some.inj split).symm⟩

theorem generate_each_append {first second : List Path} {writes : List Write}
    (generated : generateEach tools disk arguments (first ++ second) = some writes) :
    ∃ firstWrites secondWrites,
      generateEach tools disk arguments first = some firstWrites ∧
        generateEach tools disk arguments second = some secondWrites ∧
          writes = firstWrites ++ secondWrites := by
  induction first generalizing writes with
  | nil => exact ⟨[], writes, rfl, generated, rfl⟩
  | cons filename rest ih =>
      obtain ⟨fileWrites, later, file, others, rfl⟩ := generate_each_cons generated
      obtain ⟨restWrites, secondWrites, restDone, secondDone, rfl⟩ := ih others
      refine ⟨fileWrites ++ restWrites, secondWrites, ?_, secondDone, (List.append_assoc _ _ _).symm⟩
      rw [generateEach, file, restDone]
      rfl

theorem write_module_eq_some {texts : List (Path × Text)} {writes : List Write}
    (written : writeModule disk arguments texts = some writes) :
    writes = texts.map fun text => ⟨join arguments.outputDirectory text.1, text.2⟩ := by
  induction texts generalizing writes with
  | nil =>
      cases written
      rfl
  | cons text rest ih =>
      rw [writeModule, Option.bind_eq_bind, Option.bind_eq_some_iff] at written
      obtain ⟨write, opened, written⟩ := written
      obtain ⟨later, others, split⟩ := Option.bind_eq_some_iff.mp written
      cases split
      rw [ih others, write_file_eq_some opened, List.map_cons]

/-- A call that returns has written its files in this order. -/
theorem generate_files_eq_some {writes : List Write}
    (returned : generateFiles tools disk arguments = some writes) :
    ∃ first rest generated, arguments.infiles = first :: rest ∧
      generateEach tools disk arguments arguments.infiles = some generated ∧
        writes = generated ++
          (moduleTexts tools arguments (generatedName tools first)).map fun text =>
            ⟨join arguments.outputDirectory text.1, text.2⟩ := by
  rw [generateFiles] at returned
  split_ifs at returned
  simp only [Option.bind_eq_bind, Option.bind_eq_some_iff, Option.some.injEq] at returned
  obtain ⟨generated, each, first, head, moduleWrites, written, rfl⟩ := returned
  obtain ⟨rest, split⟩ := List.head?_eq_some_iff.mp head
  exact ⟨first, rest, generated, split, each, by rw [write_module_eq_some written]⟩

end Specifications

section Samples

def lowerName (name : Text) : Text := name.map Char.toLower

theorem eq_slash_of_to_lower {char : Char} (lower : char.toLower = '/') : char = '/' := by
  unfold Char.toLower at lower
  split at lower
  · rename_i upper
    have bounds : 65 ≤ char.val.toNat ∧ char.val.toNat ≤ 90 := upper
    have value : (char.val.toNat + 32) % 2 ^ 32 = 47 :=
      congrArg (fun char : Char => char.val.toNat) lower
    omega
  · exact lower

theorem lower_name_keeps (name : Text) (absent : '/' ∉ name) : '/' ∉ lowerName name := by
  intro member
  obtain ⟨char, inside, lower⟩ := List.mem_map.mp member
  exact absent (eq_slash_of_to_lower lower ▸ inside)

/-- Generated texts that name their input file, for names without words to join. -/
def echoTools : Toolchain Path Unit where
  parseFile filename _ := some filename
  generate _ parsed _ _ := some (parsed, parsed)
  camelToSnakeCase := lowerName
  keeps_names := lower_name_keeps
  pbtoolsC := []
  pbtoolsH := []
  mainRest _ _ := []

def openDisk : Disk where
  makedirs _ := true
  opens _ := true

end Samples

end ProtobufLkm.GenerateFiles
