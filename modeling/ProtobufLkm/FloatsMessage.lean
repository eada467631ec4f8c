import ProtobufLkm.Proto3Wire

/-!
# The floats message and its generated codec

`Foo` has one `float` field. The rewritten pbtools and the generated `floats.c`
keep its four bytes in a `uint32_t` and never compute with them. The pbtools
runtime decides what every iteration of the decode loop reads; the Go programs
encode with the proto3 rules of `Proto3Wire`.
-/

namespace ProtobufLkm.FloatsMessage

open ByteCodec Proto3Wire

set_option autoImplicit false

/-- `struct hello_world_foo_t` of the floats example without its heap pointer. -/
structure Foo where
  bar : UInt32
  deriving DecidableEq, Repr

/-- The runtime under `hello_world_foo_decode`: for every input the tag and the
bits each iteration of the loop gets, and the result of the call. An iteration
whose read fails gets a value as well, and the loop stores it. -/
structure PbtoolsDecoder where
  iterations : List Byte → List (Nat × UInt32)
  result : List Byte → Int

def helloWorldFooInit : Foo := { bar := 0 }

def helloWorldFooDecodeInner (iterations : List (Nat × UInt32)) (self : Foo) : Foo :=
  iterations.foldl
    (fun self (tag, value) =>
      match tag with
      | 1 => { self with bar := value }
      | _ => self)
    self

def helloWorldFooDecode (decoder : PbtoolsDecoder) (encoded : List Byte) (self : Foo) : Foo × Int :=
  (helloWorldFooDecodeInner (decoder.iterations encoded) self, decoder.result encoded)

def decodedBar (decoder : PbtoolsDecoder) (encoded : List Byte) : UInt32 :=
  (helloWorldFooDecode decoder encoded helloWorldFooInit).1.bar

/-- The Go encoder leaves out `+0`, the pattern without a one. -/
def floatField (number : Nat) (bar : UInt32) : List WireField :=
  if bar = 0 then [] else [⟨number, .fixed32 bar.toNat⟩]

def marshalFoo (bar : UInt32) : List Byte := encodeFields (floatField 1 bar)

def bits (field : WireField) : UInt32 :=
  match field.value with
  | .fixed32 bits => UInt32.ofNat bits
  | _ => 0

/-- `bar` has the wire type of a `float`. -/
def fooFields : Nat → Option Nat
  | 1 => some 5
  | _ => none

/-- Well-formed fields are read one after the other. -/
def PbtoolsDecoder.Conforms (decoder : PbtoolsDecoder) : Prop :=
  ∀ fields : List WireField, (∀ field ∈ fields, field.WellFormed) →
    (∀ field ∈ fields, takes fooFields field = true) →
    decoder.iterations (encodeFields fields) = fields.map fun field => (field.number, bits field)

/-- A runtime whose failing reads store nothing. -/
def wireDecoder : PbtoolsDecoder where
  iterations encoded :=
    (frontFields (readDeclared fooFields) encoded).1.map fun field => (field.number, bits field)
  result encoded :=
    if (frontFields (readDeclared fooFields) encoded).2 = [] then encoded.length else -1

theorem wire_decoder_conforms : wireDecoder.Conforms := by
  intro fields wellFormed own
  have parsed := parse_declared_encode wellFormed own
  simp only [wireDecoder, front_fields_of_parse parsed]

theorem float_field_well_formed (bar : UInt32) :
    (∀ field ∈ floatField 1 bar, field.WellFormed) ∧
      ∀ field ∈ floatField 1 bar, takes fooFields field = true := by
  rw [floatField]
  split_ifs
  · simp
  · have bounded : bar.toNat < 2 ^ 32 := bar.toNat_lt
    have number : IsFieldNumber 1 := by decide
    constructor
    · intro field member
      rw [List.mem_singleton.mp member]
      exact ⟨number, bounded⟩
    · intro field member
      rw [List.mem_singleton.mp member]
      rfl

/-- The bits survive, those of a NaN as well. -/
theorem decoded_bar_marshal {decoder : PbtoolsDecoder} (conforms : decoder.Conforms)
    (bar : UInt32) : decodedBar decoder (marshalFoo bar) = bar := by
  obtain ⟨wellFormed, own⟩ := float_field_well_formed bar
  rw [decodedBar, helloWorldFooDecode, marshalFoo, conforms _ wellFormed own, floatField]
  split_ifs with zero
  · rw [zero]
    rfl
  · exact UInt32.ofNat_toNat

theorem marshal_foo_zero : marshalFoo 0 = [] := rfl

theorem marshal_foo_ne_nil {bar : UInt32} (nonzero : bar ≠ 0) : marshalFoo bar ≠ [] := by
  rw [marshalFoo, floatField, if_neg nonzero, encodeFields, List.map_singleton,
    List.flatten_singleton]
  exact List.length_pos_iff.mp (encode_field_length_pos _)

theorem marshal_foo_length_le (bar : UInt32) : (marshalFoo bar).length ≤ 14 := by
  rw [marshalFoo, floatField]
  split_ifs
  · exact Nat.zero_le _
  · have tag := encode_varint_length (1 * 8 + 5)
    simp only [encodeFields, encodeField, encodeValue, WireValue.wireType, List.map_cons,
      List.map_nil, List.flatten_cons, List.flatten_nil, List.append_nil, List.length_append,
      encode_le_length]
    omega

end ProtobufLkm.FloatsMessage
