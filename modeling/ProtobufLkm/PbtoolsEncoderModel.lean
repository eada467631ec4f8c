import ProtobufLkm.FloatsMessage
import ProtobufLkm.HelloWorldMessage

/-!
# The pbtools encoder under the generated `_encode_inner` functions

pbtools fills its buffer from the end, so every call puts its bytes in front of
those written before, and the generated functions make their calls in descending
field order. The runtime is a parameter with that promise; an overflow is only
seen in the result of the whole call.
-/

namespace ProtobufLkm.PbtoolsEncoderModel

open ByteCodec Proto3Wire

set_option autoImplicit false

/-- The fields an encoder writes for a `string`: none for the empty one. -/
def stringField (number : Nat) (content : List Byte) : List WireField :=
  if content = [] then [] else [⟨number, .delimited content⟩]

def messageFields {Item : Type} (number : Nat) (content : Item → List Byte) (items : List Item) :
    List WireField :=
  items.map fun item => ⟨number, .delimited (content item)⟩

/-- `written` is what a buffer without end would hold. -/
structure PbtoolsEncoder (Encoder : Type) where
  writeString : Encoder → Nat → List Byte → Encoder
  writeInt32 : Encoder → Nat → Int → Encoder
  writeEnum : Encoder → Nat → Int → Encoder
  writeFloat : Encoder → Nat → UInt32 → Encoder
  encodeRepeatedInner :
    {Item : Type} → Encoder → Nat → List Item → (Encoder → Item → Encoder) → Encoder
  messageEncode : (Encoder → Encoder) → Nat → Int × List Byte
  written : Encoder → List Byte

variable {Encoder : Type}

def PbtoolsEncoder.Prepends (pbtools : PbtoolsEncoder Encoder) (inner : Encoder → Encoder)
    (content : List Byte) : Prop :=
  ∀ encoder, pbtools.written (inner encoder) = content ++ pbtools.written encoder

/-- For field numbers that proto3 has. A C string ends at its first NUL, and the
length of an encoding is returned as an `int`. -/
structure PbtoolsEncoder.Conforms (pbtools : PbtoolsEncoder Encoder) : Prop where
  write_string : ∀ number content, IsFieldNumber number → 0 ∉ content →
    pbtools.Prepends (pbtools.writeString · number content)
      (encodeFields (stringField number content))
  write_int32 : ∀ number value, IsFieldNumber number → IsInt32 value →
    pbtools.Prepends (pbtools.writeInt32 · number value) (encodeFields (int32Field number value))
  write_enum : ∀ number value, IsFieldNumber number → IsInt32 value →
    pbtools.Prepends (pbtools.writeEnum · number value) (encodeFields (int32Field number value))
  write_float : ∀ number value, IsFieldNumber number →
    pbtools.Prepends (pbtools.writeFloat · number value)
      (encodeFields (FloatsMessage.floatField number value))
  encode_repeated : ∀ {Item : Type} (number : Nat) (items : List Item)
    (inner : Encoder → Item → Encoder) (content : Item → List Byte), IsFieldNumber number →
    (∀ item ∈ items, pbtools.Prepends (inner · item) (content item)) →
    pbtools.Prepends (pbtools.encodeRepeatedInner · number items inner)
      (encodeFields (messageFields number content items))
  encode_fits : ∀ inner content size, pbtools.Prepends inner content →
    content.length < 2 ^ 31 → content.length ≤ size →
    pbtools.messageEncode inner size = ((content.length : Int), content)
  encode_overflows : ∀ inner content size, pbtools.Prepends inner content →
    size < content.length → (pbtools.messageEncode inner size).1 < 0

theorem encode_fields_append (first second : List WireField) :
    encodeFields (first ++ second) = encodeFields first ++ encodeFields second := by
  rw [encodeFields, List.map_append, List.flatten_append]
  rfl

/-- Calls in descending order write in ascending order. -/
theorem prepends_comp {pbtools : PbtoolsEncoder Encoder} {first second : Encoder → Encoder}
    {front back : List Byte} (later : pbtools.Prepends second front)
    (earlier : pbtools.Prepends first back) :
    pbtools.Prepends (fun encoder => second (first encoder)) (front ++ back) := by
  intro encoder
  rw [later, earlier, List.append_assoc]

section Foo

variable (pbtools : PbtoolsEncoder Encoder)

/-- `hello_world.c`. -/
def helloWorldFooEncodeInner (encoder : Encoder) (self : HelloWorldMessage.Foo) : Encoder :=
  pbtools.writeInt32 encoder 1 self.bar

def helloWorldFooEncode (self : HelloWorldMessage.Foo) (size : Nat) : Int × List Byte :=
  pbtools.messageEncode (helloWorldFooEncodeInner pbtools · self) size

/-- `floats.c`. -/
def floatsFooEncodeInner (encoder : Encoder) (self : FloatsMessage.Foo) : Encoder :=
  pbtools.writeFloat encoder 1 self.bar

def floatsFooEncode (self : FloatsMessage.Foo) (size : Nat) : Int × List Byte :=
  pbtools.messageEncode (floatsFooEncodeInner pbtools · self) size

variable {pbtools}

/-- A buffer of 20 bytes holds every message of either kind, and the generated
decoders read back what the generated encoders wrote. -/
theorem foo_codecs_round_trip (conforms : pbtools.Conforms)
    {intDecoder : HelloWorldMessage.PbtoolsDecoder} (intConforms : intDecoder.Conforms)
    {floatDecoder : FloatsMessage.PbtoolsDecoder} (floatConforms : floatDecoder.Conforms)
    {size : Nat} (room : 20 ≤ size) :
    (∀ self : HelloWorldMessage.Foo, IsInt32 self.bar →
      (helloWorldFooEncode pbtools self size).1 = (HelloWorldMessage.marshalFoo self.bar).length ∧
        HelloWorldMessage.decodedBar intDecoder (helloWorldFooEncode pbtools self size).2 =
          self.bar) ∧
    ∀ self : FloatsMessage.Foo,
      (floatsFooEncode pbtools self size).1 = (FloatsMessage.marshalFoo self.bar).length ∧
        FloatsMessage.decodedBar floatDecoder (floatsFooEncode pbtools self size).2 = self.bar := by
  constructor
  · intro self inRange
    have small := HelloWorldMessage.marshal_foo_length_le self.bar
    have encoded : helloWorldFooEncode pbtools self size = _ :=
      conforms.encode_fits _ _ size (conforms.write_int32 1 self.bar (by decide) inRange)
        (small.trans_lt (by decide)) (small.trans room)
    rw [encoded]
    exact ⟨rfl, HelloWorldMessage.decoded_bar_marshal intConforms inRange⟩
  · intro self
    have small := FloatsMessage.marshal_foo_length_le self.bar
    have fits : (FloatsMessage.marshalFoo self.bar).length ≤ size := by omega
    have encoded : floatsFooEncode pbtools self size = _ :=
      conforms.encode_fits _ _ size (conforms.write_float 1 self.bar (by decide))
        (small.trans_lt (by decide)) fits
    rw [encoded]
    exact ⟨rfl, FloatsMessage.decoded_bar_marshal floatConforms self.bar⟩

end Foo

/-- An encoder that is its buffer. -/
def wireEncoder : PbtoolsEncoder (List Byte) where
  writeString encoder number content := encodeFields (stringField number content) ++ encoder
  writeInt32 encoder number value := encodeFields (int32Field number value) ++ encoder
  writeEnum encoder number value := encodeFields (int32Field number value) ++ encoder
  writeFloat encoder number value :=
    encodeFields (FloatsMessage.floatField number value) ++ encoder
  encodeRepeatedInner encoder number items inner :=
    encodeFields (messageFields number (fun item => inner [] item) items) ++ encoder
  messageEncode inner size :=
    if (inner []).length ≤ size then ((inner []).length, inner []) else (-1, [])
  written encoder := encoder

theorem wire_encoder_conforms : wireEncoder.Conforms where
  write_string _ _ _ _ _ := rfl
  write_int32 _ _ _ _ _ := rfl
  write_enum _ _ _ _ _ := rfl
  write_float _ _ _ _ := rfl
  encode_repeated := by
    intro Item number items inner content _ each encoder
    have same : messageFields number (fun item => inner [] item) items =
        messageFields number content items := by
      apply List.map_congr_left
      intro item member
      have alone := each item member []
      simp only [wireEncoder, List.append_nil] at alone
      exact congrArg (fun bytes => WireField.mk number (.delimited bytes)) alone
    simp only [wireEncoder, same]
  encode_fits := by
    intro inner content size prepends _ fits
    have alone := prepends []
    simp only [wireEncoder, List.append_nil] at alone
    simp only [wireEncoder, alone, if_pos fits]
  encode_overflows := by
    intro inner content size prepends overflow
    have alone := prepends []
    simp only [wireEncoder, List.append_nil] at alone
    simp only [wireEncoder, alone, if_neg (Nat.not_le.mpr overflow)]
    decide

theorem foo_codecs_round_trip_twenty_bytes :
    HelloWorldMessage.decodedBar HelloWorldMessage.wireDecoder
        (helloWorldFooEncode wireEncoder { bar := -7 } 20).2 = -7 ∧
      FloatsMessage.decodedBar FloatsMessage.wireDecoder
        (floatsFooEncode wireEncoder { bar := 1092721050 } 20).2 = 1092721050 := by
  have trips := foo_codecs_round_trip wire_encoder_conforms
    HelloWorldMessage.wire_decoder_conforms FloatsMessage.wire_decoder_conforms (le_refl 20)
  exact ⟨(trips.1 { bar := -7 } (by simp [IsInt32])).2, (trips.2 { bar := 1092721050 }).2⟩

end ProtobufLkm.PbtoolsEncoderModel
