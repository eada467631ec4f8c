import ProtobufLkm.GenerateFiles
import ProtobufLkm.MakefileText

/-!
# The texts of the generated module, read back

The object list of the `Makefile` as `make` reads it, and the header that the
first quoted include of `main.c` names.
-/

namespace ProtobufLkm.ModuleTexts

open SeparatedText PosixPath MakefileText GenerateFiles

set_option autoImplicit false

section Readers

/-- The header a line includes with quotes. -/
def quotedHeader (line : Text) : Option Text :=
  (line.dropPrefix? "#include \"".toList).map fun behind => behind.takeWhile (· ≠ '\"')

def includedHeader (text : Text) : Option Text := (text.splitOn '\n').findSome? quotedHeader

def generatedDirectory : Text := "generated/".toList

def objectOf (name : Text) : Text := generatedDirectory ++ (name ++ ".o".toList)

end Readers

/-- What stands behind `:=` once the four lines are joined. -/
def objectList (name : Text) : Text :=
  [' ', ' ', '\t'] ++ ("main.o".toList ++ ([' ', ' ', '\t'] ++ ("protobuf_lkm.o".toList ++
    ([' ', ' ', '\t'] ++ objectOf name))))

/-- The lines above are complete and assign no variable with a `y` in its name. -/
theorem makefile_head_lines : ∀ line ∈ makefileHead.map String.toList,
    '\n' ∉ line ∧ line.getLast? ≠ some '\\' ∧ 'y' ∉ line.takeWhile isNameChar := by
  simp [makefileHead, isNameChar, isWhite]

theorem ends_in_o (front : Text) : (front ++ ".o".toList).getLast? ≠ some '\\' := by
  simp [List.getLast?_append]

theorem object_lines (target name : Text) (rest : List Text) :
    logicalLines (makefileObjects target name ++ rest) =
      ("obj-m\t\t\t += ".toList ++ (target ++ ".o".toList)) :: [] ::
        ((target ++ "-y".toList) ++ (['\t', ' '] ++ (':' :: '=' :: objectList name))) ::
          logicalLines rest := by
  have complete := ends_in_o ("\tgenerated/".toList ++ name)
  have first := ends_in_o ("obj-m\t\t\t += ".toList ++ target)
  have lines : makefileObjects target name ++ rest =
      ("obj-m\t\t\t += ".toList ++ target ++ ".o".toList) :: [] ::
        ([target ++ "-y\t := ".toList, "\tmain.o ".toList, "\tprotobuf_lkm.o ".toList].map
          (fun front => front ++ ['\\']) ++
            ("\tgenerated/".toList ++ name ++ ".o".toList) :: rest) := by
    simp [makefileObjects]
  rw [lines, logical_lines_complete first, logical_lines_complete (by simp),
    logical_lines_joined _ complete]
  have assigns : "-y\t := ".toList = "-y".toList ++ ['\t', ' ', ':', '=', ' '] := by simp
  have main : "\tmain.o ".toList = '\t' :: ("main.o".toList ++ [' ']) := by simp
  have library : "\tprotobuf_lkm.o ".toList = '\t' :: ("protobuf_lkm.o".toList ++ [' ']) := by simp
  have generated : "\tgenerated/".toList = '\t' :: generatedDirectory := by decide
  simp only [List.foldr_cons, List.foldr_nil, assigns, main, library, generated, objectList,
    objectOf, List.append_assoc, List.cons_append, List.nil_append]

section Makefile

variable {name : Text} (plain : ∀ char ∈ name, isNameChar char) (moduleType : ModuleType)

theorem module_name_all (name : Text) (moduleType : ModuleType) :
    (moduleName moduleType name ++ "-y".toList).all isNameChar ↔
      ∀ char ∈ name, isNameChar char := by
  cases moduleType with
  | netfilter => simp [moduleName, isNameChar, isWhite]
  | udpSocket => simp [moduleName, isNameChar, isWhite]

include plain

theorem not_mem_name {char : Char} (special : isNameChar char = false) : char ∉ name := by
  intro member
  rw [plain char member] at special
  cases special

theorem not_mem_module_name {char : Char} (special : isNameChar char = false) :
    char ∉ moduleName moduleType name := by
  intro member
  have all := List.all_eq_true.mp ((module_name_all name moduleType).mpr plain) char
    (List.mem_append_left _ member)
  rw [all] at special
  cases special

theorem makefile_lines (extra : Text) :
    (makefile (moduleName moduleType name) name extra).splitOn '\n' =
      makefileHead.map String.toList ++ (makefileObjects (moduleName moduleType name) name ++
        (makefileRules (moduleName moduleType name) extra).splitOn '\n') := by
  have head : ∀ line ∈ makefileHead.map String.toList, '\n' ∉ line :=
    fun line member => (makefile_head_lines line member).1
  have inName := not_mem_name plain (by decide : isNameChar '\n' = false)
  have inModule := not_mem_module_name plain moduleType (by decide : isNameChar '\n' = false)
  have objects : ∀ line ∈ makefileObjects (moduleName moduleType name) name, '\n' ∉ line := by
    intro line member
    simp only [makefileObjects, List.mem_cons, List.not_mem_nil, or_false] at member
    rcases member with rfl | rfl | rfl | rfl | rfl | rfl <;> simp [inName, inModule]
  rw [makefile, List.append_assoc, split_on_unlines head, split_on_unlines objects]

theorem object_list_words :
    pieces isWhite (objectList name) =
      ["main.o".toList, "protobuf_lkm.o".toList, objectOf name] := by
  have space : isWhite ' ' = true := by decide
  have tab : isWhite '\t' = true := by decide
  have main : pieces isWhite "main.o".toList = ["main.o".toList] := by decide +kernel
  have library : pieces isWhite "protobuf_lkm.o".toList = ["protobuf_lkm.o".toList] := by
    decide +kernel
  have directoryPlain : generatedDirectory.all fun char => !isWhite char := by decide
  have suffixPlain : ∀ char ∈ ".o".toList, isWhite char = false := by
    simp [isWhite]
  have object : pieces isWhite (objectOf name) = [objectOf name] := by
    apply pieces_eq_singleton
    · simp [objectOf]
    · intro char member
      rcases List.mem_append.mp member with directory | file
      · exact (Bool.not_eq_true' _).mp (List.all_eq_true.mp directoryPlain char directory)
      · rcases List.mem_append.mp file with inName | suffix
        · have allowed := plain char inName
          rw [isNameChar, Bool.and_eq_true, Bool.not_eq_true'] at allowed
          exact allowed.1
        · exact suffixPlain char suffix
  simp only [objectList, List.cons_append, List.nil_append, pieces_cons space, pieces_cons tab,
    pieces_append_cons space, main, library, object]

theorem not_mem_object_list : ¬('#' ∈ objectList name ∨ '$' ∈ objectList name) := by
  have hash := not_mem_name plain (by decide : isNameChar '#' = false)
  have dollar := not_mem_name plain (by decide : isNameChar '$' = false)
  have directory : '#' ∉ generatedDirectory ∧ '$' ∉ generatedDirectory := by decide
  simp [objectList, objectOf, hash, dollar, directory]

theorem makefile_words (extra : Text) :
    assignedWords (moduleName moduleType name ++ "-y".toList)
        (makefile (moduleName moduleType name) name extra) =
      some ["main.o".toList, "protobuf_lkm.o".toList, objectOf name] := by
  have names := (module_name_all name moduleType).mpr plain
  have target : 'y' ∈ moduleName moduleType name ++ "-y".toList := by simp
  have complete : ∀ line ∈ makefileHead.map String.toList, line.getLast? ≠ some '\\' :=
    fun line member => (makefile_head_lines line member).2.1
  have head : (makefileHead.map String.toList).findSome?
      (assignedValue (moduleName moduleType name ++ "-y".toList)) = none := by
    rw [List.findSome?_eq_none_iff]
    intro line member
    exact assigned_value_eq_none names target (makefile_head_lines line member).2.2
  have object : assignedValue (moduleName moduleType name ++ "-y".toList)
      ("obj-m\t\t\t += ".toList ++ (moduleName moduleType name ++ ".o".toList)) = none := by
    apply assigned_value_eq_none names target
    simp [isNameChar, isWhite]
  have blank : assignedValue (moduleName moduleType name ++ "-y".toList) [] = none := by
    apply assigned_value_eq_none names target
    simp
  have blanks : ∀ char ∈ ['\t', ' '], isWhite char := by simp [isWhite]
  have value := assigned_value_eq_some (moduleName moduleType name ++ "-y".toList) blanks
    (objectList name)
  rw [assignedWords, if_pos names, makefile_lines plain, logical_lines_append complete,
    object_lines, List.findSome?_append, head, Option.none_or, List.findSome?_cons, object,
    List.findSome?_cons, blank, List.findSome?_cons, value]
  simp only [Option.bind_some]
  rw [if_neg (not_mem_object_list plain), object_list_words plain]

end Makefile

section Include

/-- The include is the first quoted one of either template. -/
theorem main_head_lines (moduleType : ModuleType) :
    ∀ line ∈ (mainHead moduleType).map String.toList, '\n' ∉ line ∧ quotedHeader line = none := by
  cases moduleType with
  | netfilter => simp [mainHead, quotedHeader, List.dropPrefix?]
  | udpSocket => simp [mainHead, quotedHeader, List.dropPrefix?]

theorem included_header_main (moduleType : ModuleType) {importPath : Text}
    (line : '\n' ∉ importPath) (rest : Text) :
    includedHeader (mainC moduleType importPath rest) =
      some ((importPath ++ ['\"']).takeWhile (· ≠ '\"')) := by
  have head : ∀ line ∈ (mainHead moduleType).map String.toList, '\n' ∉ line :=
    fun line member => (main_head_lines moduleType line member).1
  have quoted : ∀ line ∈ ["#include \"".toList ++ (importPath ++ ['\"'])], '\n' ∉ line := by
    simp [line]
  have unquoted : ((mainHead moduleType).map String.toList).findSome? quotedHeader = none := by
    rw [List.findSome?_eq_none_iff]
    exact fun line member => (main_head_lines moduleType line member).2
  have found : quotedHeader ("#include \"".toList ++ (importPath ++ ['\"'])) =
      some ((importPath ++ ['\"']).takeWhile (· ≠ '\"')) := by
    rw [quotedHeader, List.dropPrefix?_append_of_beq _ (beq_self_eq_true _)]
    rfl
  rw [includedHeader, mainC, List.append_assoc, split_on_unlines head, split_on_unlines quoted,
    List.findSome?_append, unquoted, Option.none_or, List.singleton_append, List.findSome?_cons, found]

end Include

end ProtobufLkm.ModuleTexts
