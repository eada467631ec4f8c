import ProtobufLkm.Proto3Wire

/-!
# The hello_world message and its generated codec

`Foo` has one `int32` field, `bar`. The generated `hello_world.c` is modelled
over the pbtools runtime it links, which decides what every iteration of the
decode loop reads; the Go programs encode with the proto3 rules of `Proto3Wire`.
-/

namespace ProtobufLkm.HelloWorldMessage

open ByteCodec Proto3Wire

set_option autoImplicit false

/-- `struct hello_world_foo_t` without its heap pointer. -/
structure Foo where
  bar : Int
  deriving DecidableEq, Repr

/-- The runtime under `hello_world_foo_decode`: for every input the tag and the
`int32` each iteration of the loop gets, and the result of the call. An iteration
whose read fails gets a value as well, and the loop stores it. -/
structure PbtoolsDecoder where
  iterations : List Byte → List (Nat × Int)
  result : List Byte → Int

def helloWorldFooInit : Foo := { bar := 0 }

def helloWorldFooDecodeInner (iterations : List (Nat × Int)) (self : Foo) : Foo :=
  iterations.foldl
    (fun self (tag, value) =>
      match tag with
      | 1 => { self with bar := value }
      | _ => self)
    self

def helloWorldFooDecode (decoder : PbtoolsDecoder) (encoded : List Byte) (self : Foo) : Foo × Int :=
  (helloWorldFooDecodeInner (decoder.iterations encoded) self, decoder.result encoded)

def decodedBar (decoder : PbtoolsDecoder) (encoded : List Byte) : Int :=
  (helloWorldFooDecode decoder encoded helloWorldFooInit).1.bar

/-- The Go encoder. -/
def marshalFoo (bar : Int) : List Byte := encodeFields (int32Field 1 bar)

def IsVarint (field : WireField) : Prop := ∃ value, field.value = .varint value

/-- Well-formed varint fields are read one after the other. -/
def PbtoolsDecoder.Conforms (decoder : PbtoolsDecoder) : Prop :=
  ∀ fields : List WireField, (∀ field ∈ fields, field.WellFormed ∧ IsVarint field) →
    decoder.iterations (encodeFields fields) = fields.map fun field => (field.number, field.int32)

/-- `bar` is a varint. -/
def fooFields : Nat → Option Nat
  | 1 => some 0
  | _ => none

/-- A runtime whose failing reads store nothing. -/
def wireDecoder : PbtoolsDecoder where
  iterations encoded :=
    (frontFields (readDeclared fooFields) encoded).1.map fun field => (field.number, field.int32)
  result encoded :=
    if (frontFields (readDeclared fooFields) encoded).2 = [] then encoded.length else -1

theorem takes_foo_varint {field : WireField} (varint : IsVarint field) :
    takes fooFields field = true := by
  obtain ⟨value, own⟩ := varint
  rw [takes, own]
  unfold fooFields
  split <;> rfl

theorem wire_decoder_conforms : wireDecoder.Conforms := by
  intro fields varints
  have parsed := parse_declared_encode (fun field member => (varints field member).1)
    fun field member => takes_foo_varint (varints field member).2
  simp only [wireDecoder, front_fields_of_parse parsed]

theorem int32_field_varint (number : Nat) (value : Int) :
    ∀ field ∈ int32Field number value, IsVarint field := by
  intro field member
  simp only [int32Field] at member
  split_ifs at member
  · cases member
  · exact ⟨_, congrArg WireField.value (List.mem_singleton.mp member)⟩

theorem decoded_bar_of_fields {decoder : PbtoolsDecoder} (conforms : decoder.Conforms)
    {fields : List WireField} (varints : ∀ field ∈ fields, field.WellFormed ∧ IsVarint field) :
    decodedBar decoder (encodeFields fields) =
      (helloWorldFooDecodeInner (fields.map fun field => (field.number, field.int32))
        helloWorldFooInit).bar := by
  rw [decodedBar, helloWorldFooDecode, conforms fields varints]

/-- The default is not encoded and is what an empty message decodes to. -/
theorem decoded_bar_marshal {decoder : PbtoolsDecoder} (conforms : decoder.Conforms) {bar : Int}
    (inRange : IsInt32 bar) : decodedBar decoder (marshalFoo bar) = bar := by
  rw [marshalFoo, decoded_bar_of_fields conforms fun field member =>
    ⟨int32_field_well_formed (by decide) bar field member,
      int32_field_varint 1 bar field member⟩]
  by_cases zero : bar = 0
  · rw [int32Field, if_pos zero, zero]
    rfl
  · rw [int32Field, if_neg zero]
    exact int32_of_field inRange 1

theorem marshal_foo_length_pos {bar : Int} (nonzero : bar ≠ 0) : 1 ≤ (marshalFoo bar).length := by
  rw [marshalFoo, int32Field, if_neg nonzero, encodeFields, List.map_singleton,
    List.flatten_singleton]
  exact encode_field_length_pos _

theorem marshal_foo_length_le (bar : Int) : (marshalFoo bar).length ≤ 20 := by
  rw [marshalFoo, int32Field]
  split_ifs
  · exact Nat.zero_le _
  · have tag := encode_varint_length (1 * 8 + 0)
    have value := encode_varint_length (bar % 2 ^ 64).toNat
    simp only [encodeFields, encodeField, encodeValue, WireValue.wireType, List.map_cons,
      List.map_nil, List.flatten_cons, List.flatten_nil, List.append_nil, List.length_append]
    omega

end ProtobufLkm.HelloWorldMessage
