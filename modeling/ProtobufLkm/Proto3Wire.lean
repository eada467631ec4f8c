import ProtobufLkm.ByteCodec
import ProtobufLkm.ItemSequence

/-!
The proto3 wire format: base-128 varints, tagged fields of the four wire types in
use, and messages as sequences of fields. The reader takes what every proto3
parser has to take and nothing else: tags are 32-bit varints, lengths 31-bit
ones, and no varint is longer than its type allows. It recovers every sequence of
well-formed fields from its encoding.
-/

namespace ProtobufLkm.Proto3Wire

open ByteCodec

set_option autoImplicit false

section Varint

def varintBytes : Nat → Nat → List Byte
  | 0, _ => []
  | fuel + 1, value =>
      if value < 128 then [⟨value % 256, Nat.mod_lt _ (by decide)⟩]
      else ⟨(128 + value % 128) % 256, Nat.mod_lt _ (by decide)⟩ :: varintBytes fuel (value / 128)

/-- Ten bytes are enough for every 64-bit value. -/
def encodeVarint (value : Nat) : List Byte := varintBytes 10 value

/-- A varint of at most the given number of bytes. -/
def decodeVarint : Nat → List Byte → Option (Nat × List Byte)
  | 0, _ => none
  | _ + 1, [] => none
  | count + 1, byte :: rest =>
      if byte.val < 128 then some (byte.val, rest)
      else (decodeVarint count rest).map fun (high, suffix) => (byte.val - 128 + 128 * high, suffix)

/-- The value must be one of the type's. -/
def readVarint (count width : Nat) (input : List Byte) : Option (Nat × List Byte) :=
  (decodeVarint count input).filter fun (value, _) => value < 2 ^ width

theorem decode_varint_bytes {count fuel value : Nat} (fits : value < 128 ^ (count + 1))
    (enough : count ≤ fuel) (rest : List Byte) :
    decodeVarint (count + 1) (varintBytes (fuel + 1) value ++ rest) = some (value, rest) := by
  induction count generalizing fuel value with
  | zero =>
      have small : value < 128 := by simpa using fits
      rw [varintBytes, if_pos small, List.singleton_append, decodeVarint]
      simp only [Nat.mod_eq_of_lt (by omega : value < 256), if_pos small]
  | succ count ih =>
      rw [varintBytes]
      by_cases small : value < 128
      · rw [if_pos small, List.singleton_append, decodeVarint]
        simp only [Nat.mod_eq_of_lt (by omega : value < 256), if_pos small]
      · have next : value / 128 < 128 ^ (count + 1) := by
          rw [Nat.div_lt_iff_lt_mul (by decide), ← pow_succ]
          exact fits
        have byte : (128 + value % 128) % 256 = 128 + value % 128 := Nat.mod_eq_of_lt (by omega)
        obtain ⟨fuel, rfl⟩ : ∃ less, fuel = less + 1 := ⟨fuel - 1, by omega⟩
        rw [if_neg small, List.cons_append, decodeVarint]
        simp only [byte, ih next (Nat.le_of_succ_le_succ enough), Option.map_some]
        rw [if_neg (by omega)]
        simp only [Option.some.injEq, Prod.mk.injEq, and_true]
        omega

theorem read_varint_encode {count width value : Nat} (fits : value < 2 ^ width)
    (room : 2 ^ width ≤ 128 ^ (count + 1)) (short : count ≤ 9) (rest : List Byte) :
    readVarint (count + 1) width (encodeVarint value ++ rest) = some (value, rest) := by
  rw [readVarint, encodeVarint, decode_varint_bytes (fits.trans_le room) short rest]
  simp only [Option.filter_some, decide_eq_true_eq, fits, if_true]

theorem varint_bytes_length (fuel value : Nat) :
    1 ≤ (varintBytes (fuel + 1) value).length ∧
      (varintBytes (fuel + 1) value).length ≤ fuel + 1 := by
  induction fuel generalizing value with
  | zero =>
      rw [varintBytes]
      split_ifs <;> simp [varintBytes]
  | succ fuel ih =>
      have tail := ih (value / 128)
      rw [varintBytes]
      split_ifs
      · simp
      · rw [List.length_cons]
        omega

theorem encode_varint_length (value : Nat) :
    1 ≤ (encodeVarint value).length ∧ (encodeVarint value).length ≤ 10 :=
  varint_bytes_length 9 value

theorem encode_varint_length_small {value : Nat} (small : value < 128) :
    (encodeVarint value).length = 1 := by
  rw [encodeVarint, varintBytes, if_pos small]
  rfl

theorem decode_varint_shorter {count : Nat} {input rest : List Byte} {value : Nat}
    (decoded : decodeVarint count input = some (value, rest)) : rest.length < input.length := by
  induction count generalizing input value rest with
  | zero => cases decoded
  | succ count ih =>
      cases input with
      | nil => cases decoded
      | cons byte input =>
          rw [decodeVarint] at decoded
          split_ifs at decoded
          · cases decoded
            exact Nat.lt_succ_self _
          · obtain ⟨⟨high, suffix⟩, tail, found⟩ := Option.map_eq_some_iff.mp decoded
            cases found
            exact Nat.lt_succ_of_lt (ih tail)

theorem decode_varint_append {count : Nat} {input rest : List Byte} {value : Nat}
    (decoded : decodeVarint count input = some (value, rest)) (more : List Byte) :
    decodeVarint count (input ++ more) = some (value, rest ++ more) := by
  induction count generalizing input value rest with
  | zero => cases decoded
  | succ count ih =>
      cases input with
      | nil => cases decoded
      | cons byte input =>
          rw [decodeVarint] at decoded
          rw [List.cons_append, decodeVarint]
          split_ifs at decoded ⊢
          · cases decoded
            rfl
          · obtain ⟨⟨high, suffix⟩, tail, found⟩ := Option.map_eq_some_iff.mp decoded
            cases found
            rw [ih tail, Option.map_some]

theorem read_varint_shorter {count width : Nat} {input rest : List Byte} {value : Nat}
    (found : readVarint count width input = some (value, rest)) : rest.length < input.length :=
  decode_varint_shorter (Option.filter_eq_some_iff.mp found).1

theorem read_varint_append {count width : Nat} {input rest : List Byte} {value : Nat}
    (found : readVarint count width input = some (value, rest)) (more : List Byte) :
    readVarint count width (input ++ more) = some (value, rest ++ more) := by
  obtain ⟨decoded, small⟩ := Option.filter_eq_some_iff.mp found
  rw [readVarint, decode_varint_append decoded more]
  exact Option.filter_eq_some_iff.mpr ⟨rfl, small⟩

end Varint

section Fields

inductive WireValue where
  | varint (value : Nat)
  | fixed64 (bits : Nat)
  | delimited (content : List Byte)
  | fixed32 (bits : Nat)
  deriving DecidableEq, Repr

structure WireField where
  number : Nat
  value : WireValue
  deriving DecidableEq, Repr

def WireValue.wireType : WireValue → Nat
  | .varint _ => 0
  | .fixed64 _ => 1
  | .delimited _ => 2
  | .fixed32 _ => 5

def WireValue.WellFormed : WireValue → Prop
  | .varint value => value < 2 ^ 64
  | .fixed64 bits => bits < 2 ^ 64
  | .delimited content => content.length < 2 ^ 31
  | .fixed32 bits => bits < 2 ^ 32

def IsFieldNumber (number : Nat) : Prop := 1 ≤ number ∧ number < 2 ^ 29

instance (number : Nat) : Decidable (IsFieldNumber number) :=
  inferInstanceAs (Decidable (1 ≤ number ∧ number < 2 ^ 29))

def WireField.WellFormed (field : WireField) : Prop :=
  IsFieldNumber field.number ∧ field.value.WellFormed

def encodeValue : WireValue → List Byte
  | .varint value => encodeVarint value
  | .fixed64 bits => encodeLE 8 bits
  | .delimited content => encodeVarint content.length ++ content
  | .fixed32 bits => encodeLE 4 bits

def encodeField (field : WireField) : List Byte :=
  encodeVarint (field.number * 8 + field.value.wireType) ++ encodeValue field.value

def encodeFields (fields : List WireField) : List Byte := (fields.map encodeField).flatten

def readFixed (width : Nat) (input : List Byte) : Option (Nat × List Byte) :=
  if width ≤ input.length then some (decodeLE (input.take width), input.drop width) else none

def readDelimited (input : List Byte) : Option (List Byte × List Byte) :=
  (readVarint 5 31 input).bind fun (length, rest) =>
    if length ≤ rest.length then some (rest.take length, rest.drop length) else none

/-- The groups of the wire types 3 and 4 are no part of proto3. -/
def readValue (wireType : Nat) (input : List Byte) : Option (WireValue × List Byte) :=
  match wireType with
  | 0 => (readVarint 10 64 input).map fun (value, rest) => (.varint value, rest)
  | 1 => (readFixed 8 input).map fun (bits, rest) => (.fixed64 bits, rest)
  | 2 => (readDelimited input).map fun (content, rest) => (.delimited content, rest)
  | 5 => (readFixed 4 input).map fun (bits, rest) => (.fixed32 bits, rest)
  | _ => none

def readField (input : List Byte) : Option (WireField × List Byte) :=
  (readVarint 5 32 input).bind fun (tag, afterTag) =>
    if tag / 8 = 0 then none
    else (readValue (tag % 8) afterTag).map fun (value, rest) => (⟨tag / 8, value⟩, rest)

/-- Every field takes at least one byte, so the input's length is enough fuel. -/
def parse (input : List Byte) : Option (List WireField) :=
  ItemSequence.readAll readField input.length input

end Fields

section RoundTrip

theorem read_fixed_encode {width bits : Nat} (fits : bits < 256 ^ width) (rest : List Byte) :
    readFixed width (encodeLE width bits ++ rest) = some (bits, rest) := by
  have present : width ≤ (encodeLE width bits ++ rest).length := by
    rw [List.length_append, encode_le_length]
    exact Nat.le_add_right _ _
  rw [readFixed, if_pos present, List.take_left' (encode_le_length width bits),
    List.drop_left' (encode_le_length width bits), decode_le_encode_le fits]

theorem read_delimited_encode {content : List Byte} (fits : content.length < 2 ^ 31)
    (rest : List Byte) :
    readDelimited (encodeVarint content.length ++ content ++ rest) = some (content, rest) := by
  have inside : content.length ≤ (content ++ rest).length := by
    rw [List.length_append]
    exact Nat.le_add_right _ _
  rw [readDelimited, List.append_assoc, read_varint_encode fits (by decide) (by decide),
    Option.bind_some]
  simp only [if_pos inside, List.take_left, List.drop_left]

theorem read_value_encode {value : WireValue} (wellFormed : value.WellFormed) (rest : List Byte) :
    readValue value.wireType (encodeValue value ++ rest) = some (value, rest) := by
  cases value with
  | varint value =>
      have read := @read_varint_encode 9 64 value wellFormed (by decide) le_rfl rest
      simp only [WireValue.wireType, readValue, encodeValue, read, Option.map_some]
  | fixed64 bits =>
      have read := @read_fixed_encode 8 bits wellFormed rest
      simp only [WireValue.wireType, readValue, encodeValue, read, Option.map_some]
  | delimited content =>
      have read := read_delimited_encode wellFormed rest
      simp only [WireValue.wireType, readValue, encodeValue, read, Option.map_some]
  | fixed32 bits =>
      have read := @read_fixed_encode 4 bits wellFormed rest
      simp only [WireValue.wireType, readValue, encodeValue, read, Option.map_some]

theorem wire_type_lt (value : WireValue) : value.wireType < 8 := by
  cases value <;> simp [WireValue.wireType]

theorem read_field_encode {field : WireField} (wellFormed : field.WellFormed) (rest : List Byte) :
    readField (encodeField field ++ rest) = some (field, rest) := by
  obtain ⟨number, value⟩ := field
  obtain ⟨⟨positive, bounded⟩, content⟩ := wellFormed
  have kind := wire_type_lt value
  simp only at positive bounded content
  have number_eq : (number * 8 + value.wireType) / 8 = number := by omega
  have kind_eq : (number * 8 + value.wireType) % 8 = value.wireType := by omega
  have tag : number * 8 + value.wireType < 2 ^ 32 := by omega
  rw [readField, encodeField, List.append_assoc, read_varint_encode tag (by decide) (by decide),
    Option.bind_some]
  simp only [number_eq, kind_eq, read_value_encode content, Option.map_some]
  exact if_neg (by omega)

theorem encode_field_length_pos (field : WireField) : 1 ≤ (encodeField field).length := by
  have tag := (encode_varint_length (field.number * 8 + field.value.wireType)).1
  rw [encodeField, List.length_append]
  exact tag.trans (Nat.le_add_right _ _)

theorem read_fixed_shorter {width : Nat} (positive : 0 < width) {input rest : List Byte}
    {bits : Nat} (found : readFixed width input = some (bits, rest)) :
    rest.length < input.length := by
  rw [readFixed] at found
  split_ifs at found
  cases found
  rw [List.length_drop]
  omega

theorem read_delimited_shorter {input rest content : List Byte}
    (found : readDelimited input = some (content, rest)) : rest.length < input.length := by
  obtain ⟨⟨length, behind⟩, first, found⟩ := Option.bind_eq_some_iff.mp found
  have shorter := read_varint_shorter first
  simp only at found
  split_ifs at found
  cases found
  rw [List.length_drop]
  omega

theorem read_value_shorter {wireType : Nat} {input rest : List Byte} {value : WireValue}
    (found : readValue wireType input = some (value, rest)) : rest.length < input.length := by
  unfold readValue at found
  split at found
  · obtain ⟨pair, first, same⟩ := Option.map_eq_some_iff.mp found
    cases same
    exact read_varint_shorter first
  · obtain ⟨pair, first, same⟩ := Option.map_eq_some_iff.mp found
    cases same
    exact read_fixed_shorter (by decide) first
  · obtain ⟨pair, first, same⟩ := Option.map_eq_some_iff.mp found
    cases same
    exact read_delimited_shorter first
  · obtain ⟨pair, first, same⟩ := Option.map_eq_some_iff.mp found
    cases same
    exact read_fixed_shorter (by decide) first
  · cases found

theorem read_field_shorter {input rest : List Byte} {field : WireField}
    (found : readField input = some (field, rest)) : rest.length < input.length := by
  obtain ⟨⟨tag, afterTag⟩, first, found⟩ := Option.bind_eq_some_iff.mp found
  simp only at found
  split_ifs at found
  obtain ⟨pair, second, same⟩ := Option.map_eq_some_iff.mp found
  cases same
  exact (read_value_shorter second).trans (read_varint_shorter first)

theorem parse_eq_some_iff (input : List Byte) (fields : List WireField) :
    parse input = some fields ↔ ItemSequence.Holds readField input fields :=
  ⟨ItemSequence.holds_of_read_all,
    fun holds => ItemSequence.read_all_of_holds read_field_shorter holds le_rfl⟩

/-- The reader inverts the writer on every sequence of well-formed fields. -/
theorem parse_encode_fields {fields : List WireField}
    (wellFormed : ∀ field ∈ fields, field.WellFormed) :
    parse (encodeFields fields) = some fields := by
  apply (parse_eq_some_iff _ _).mpr
  apply ItemSequence.holds_written
  · exact fun field _ => List.length_pos_iff.mp (encode_field_length_pos field)
  · exact fun field member => read_field_encode (wellFormed field member)

theorem parse_ne_nil {input : List Byte} {fields : List WireField} (nonempty : input ≠ [])
    (parsed : parse input = some fields) : fields ≠ [] := by
  cases (parse_eq_some_iff _ _).mp parsed with
  | nil => exact absurd rfl nonempty
  | cons _ _ _ => exact List.cons_ne_nil _ _

end RoundTrip

section Append

theorem read_fixed_append {width : Nat} {input rest : List Byte} {bits : Nat}
    (found : readFixed width input = some (bits, rest)) (more : List Byte) :
    readFixed width (input ++ more) = some (bits, rest ++ more) := by
  rw [readFixed] at found ⊢
  split_ifs at found with present
  cases found
  have inside : width ≤ (input ++ more).length := by
    rw [List.length_append]
    omega
  rw [if_pos inside, List.take_append_of_le_length present, List.drop_append_of_le_length present]

theorem read_delimited_append {input rest content : List Byte}
    (found : readDelimited input = some (content, rest)) (more : List Byte) :
    readDelimited (input ++ more) = some (content, rest ++ more) := by
  obtain ⟨⟨length, behind⟩, first, found⟩ := Option.bind_eq_some_iff.mp found
  simp only at found
  split_ifs at found with present
  cases found
  have inside : length ≤ (behind ++ more).length := by
    rw [List.length_append]
    omega
  rw [readDelimited, read_varint_append first more, Option.bind_some]
  simp only [if_pos inside, List.take_append_of_le_length present,
    List.drop_append_of_le_length present]

theorem read_value_append {wireType : Nat} {input rest : List Byte} {value : WireValue}
    (found : readValue wireType input = some (value, rest)) (more : List Byte) :
    readValue wireType (input ++ more) = some (value, rest ++ more) := by
  unfold readValue at found ⊢
  split at found
  · obtain ⟨pair, first, same⟩ := Option.map_eq_some_iff.mp found
    cases same
    simp only [read_varint_append first more, Option.map_some]
  · obtain ⟨pair, first, same⟩ := Option.map_eq_some_iff.mp found
    cases same
    simp only [read_fixed_append first more, Option.map_some]
  · obtain ⟨pair, first, same⟩ := Option.map_eq_some_iff.mp found
    cases same
    simp only [read_delimited_append first more, Option.map_some]
  · obtain ⟨pair, first, same⟩ := Option.map_eq_some_iff.mp found
    cases same
    simp only [read_fixed_append first more, Option.map_some]
  · cases found

theorem read_field_append {input rest : List Byte} {field : WireField}
    (found : readField input = some (field, rest)) (more : List Byte) :
    readField (input ++ more) = some (field, rest ++ more) := by
  obtain ⟨⟨tag, afterTag⟩, first, found⟩ := Option.bind_eq_some_iff.mp found
  simp only at found
  split_ifs at found with zero
  obtain ⟨pair, second, same⟩ := Option.map_eq_some_iff.mp found
  cases same
  rw [readField, read_varint_append first more, Option.bind_some]
  simp only [if_neg zero, read_value_append second more, Option.map_some]

/-- Encodings one after the other are the encoding of all their fields. -/
theorem parse_append {first second : List Byte} {fields more : List WireField}
    (parsed : parse first = some fields) (behind : parse second = some more) :
    parse (first ++ second) = some (fields ++ more) := by
  rw [parse_eq_some_iff] at parsed behind ⊢
  exact ItemSequence.holds_append read_field_append parsed behind

end Append

section Declared

/-- A message gives the wire types of its own fields by their numbers; fields with
other numbers are taken as they come. -/
def takes (declared : Nat → Option Nat) (field : WireField) : Bool :=
  (declared field.number).all (· == field.value.wireType)

def readDeclared (declared : Nat → Option Nat) (input : List Byte) :
    Option (WireField × List Byte) :=
  (readField input).filter fun (field, _) => takes declared field

def parseDeclared (declared : Nat → Option Nat) (input : List Byte) : Option (List WireField) :=
  ItemSequence.readAll (readDeclared declared) input.length input

/-- The fields in front of the first one that cannot be read, and what is left. -/
def frontFields (read : List Byte → Option (WireField × List Byte)) (input : List Byte) :
    List WireField × List Byte :=
  ItemSequence.readFront read input.length input

variable {declared : Nat → Option Nat}

theorem front_fields_of_parse {input : List Byte} {fields : List WireField}
    (parsed : parseDeclared declared input = some fields) :
    frontFields (readDeclared declared) input = (fields, []) :=
  (ItemSequence.read_all_eq_some_iff _ _ _).mp parsed

theorem read_declared_iff {input rest : List Byte} {field : WireField} :
    readDeclared declared input = some (field, rest) ↔
      readField input = some (field, rest) ∧ takes declared field = true :=
  Option.filter_eq_some_iff

theorem read_declared_shorter {input rest : List Byte} {field : WireField}
    (found : readDeclared declared input = some (field, rest)) : rest.length < input.length :=
  read_field_shorter (read_declared_iff.mp found).1

theorem parse_declared_eq_some_iff (input : List Byte) (fields : List WireField) :
    parseDeclared declared input = some fields ↔
      ItemSequence.Holds (readDeclared declared) input fields :=
  ⟨ItemSequence.holds_of_read_all,
    fun holds => ItemSequence.read_all_of_holds read_declared_shorter holds le_rfl⟩

theorem parse_declared_iff (input : List Byte) (fields : List WireField) :
    parseDeclared declared input = some fields ↔
      parse input = some fields ∧ ∀ field ∈ fields, takes declared field = true := by
  rw [parse_declared_eq_some_iff, parse_eq_some_iff]
  constructor
  · intro holds
    induction holds with
    | nil => exact ⟨.nil, by simp⟩
    | cons nonempty first _ ih =>
        obtain ⟨found, own⟩ := read_declared_iff.mp first
        exact ⟨.cons nonempty found ih.1, List.forall_mem_cons.mpr ⟨own, ih.2⟩⟩
  · rintro ⟨holds, own⟩
    induction holds with
    | nil => exact .nil
    | cons nonempty first _ ih =>
        obtain ⟨head, tail⟩ := List.forall_mem_cons.mp own
        exact .cons nonempty (read_declared_iff.mpr ⟨first, head⟩) (ih tail)

theorem parse_declared_append {first second : List Byte} {fields more : List WireField}
    (parsed : parseDeclared declared first = some fields)
    (behind : parseDeclared declared second = some more) :
    parseDeclared declared (first ++ second) = some (fields ++ more) := by
  rw [parse_declared_iff] at parsed behind ⊢
  refine ⟨parse_append parsed.1 behind.1, fun field member => ?_⟩
  rcases List.mem_append.mp member with inFirst | inSecond
  · exact parsed.2 field inFirst
  · exact behind.2 field inSecond

theorem parse_declared_encode {fields : List WireField}
    (wellFormed : ∀ field ∈ fields, field.WellFormed)
    (own : ∀ field ∈ fields, takes declared field = true) :
    parseDeclared declared (encodeFields fields) = some fields :=
  (parse_declared_iff _ _).mpr ⟨parse_encode_fields wellFormed, own⟩

end Declared

/-- The field an encoder writes for an `int32`: none for the default, otherwise
the two's complement value extended to 64 bits. -/
def int32Field (number : Nat) (value : Int) : List WireField :=
  if value = 0 then [] else [⟨number, .varint (value % 2 ^ 64).toNat⟩]

def WireField.int32 (field : WireField) : Int :=
  match field.value with
  | .varint value => toInt32 (value % 2 ^ 32)
  | _ => 0

def IsInt32 (value : Int) : Prop := -(2 ^ 31) ≤ value ∧ value < 2 ^ 31

theorem int32_field_well_formed {number : Nat} (isNumber : IsFieldNumber number) (value : Int) :
    ∀ field ∈ int32Field number value, field.WellFormed := by
  intro field member
  simp only [int32Field] at member
  split_ifs at member with zero
  · cases member
  · rw [List.mem_singleton.mp member]
    refine ⟨isNumber, ?_⟩
    simp only [WireValue.WellFormed]
    omega

theorem int32_of_field {value : Int} (inRange : IsInt32 value) (number : Nat) :
    WireField.int32 ⟨number, .varint (value % 2 ^ 64).toNat⟩ = value := by
  obtain ⟨lower, upper⟩ := inRange
  simp only [WireField.int32, toInt32]
  split_ifs <;> omega

end ProtobufLkm.Proto3Wire
