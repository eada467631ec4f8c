import ProtobufLkm.FramedTcpDemo
import ProtobufLkm.HelloWorldTcpDemo
import ProtobufLkm.FloatsFilter
import ProtobufLkm.AddressBookEncoding
import ProtobufLkm.AddressBookReceiver

/-!
# The three netfilter demos

What the three demos print: the floats example, the address-book example with
the books its client makes up, and every run of the hello_world example.
-/

namespace ProtobufLkm.NetfilterTcpDemos

open ByteCodec Proto3Wire NetfilterHookModel LengthFraming FramedTcpModel FramedTcpDemo

set_option autoImplicit false

section Floats

open FloatsMessage FloatsFilter

/-- What the floats module and the two Go programs around it do with a float,
given by its bits. -/
def floatsDemo (decoder : PbtoolsDecoder) (unmarshal : List Byte → Option UInt32) :
    Demo UInt32 where
  marshal := marshalFoo
  unmarshal := unmarshal
  processMessage := FloatsFilter.processMessage decoder

/-- The C comparison of the module does not ask for a drop. -/
def withinTreshold (bar : UInt32) : Bool :=
  !Binary32.less tresholdF (Binary32.ofBits bar.toNat)

variable {decoder : PbtoolsDecoder} {unmarshal : List Byte → Option UInt32}

theorem floats_passes (conforms : decoder.Conforms) :
    passes (floatsDemo decoder unmarshal) = withinTreshold := by
  funext bar
  by_cases zero : bar = 0
  · have verdict : verdictOf (floatsDemo decoder unmarshal) 0 = .accept := verdict_of_empty rfl
    rw [zero, passes, verdict]
    decide
  · have small : (marshalFoo bar).length < bufferSize :=
      (marshal_foo_length_le bar).trans_lt (by decide)
    have verdict : verdictOf (floatsDemo decoder unmarshal) bar =
        FloatsFilter.processMessage decoder (marshalFoo bar) :=
      verdict_of_judged (marshal_foo_ne_nil zero) small
    rw [passes, verdict, FloatsFilter.processMessage, decoded_bar_marshal conforms,
      withinTreshold]
    cases Binary32.less tresholdF (Binary32.ofBits bar.toNat) <;> rfl

/-- The floats server prints the floats up to the first one the comparison drops. -/
theorem floats_demo_prints (conforms : decoder.Conforms) {floats : List UInt32}
    (unmarshals : ∀ bar ∈ floats, unmarshal (marshalFoo bar) = some bar) :
    PrintsExactly (floatsDemo decoder unmarshal) floats (floats.takeWhile withinTreshold) := by
  have fits : FramesFit (floatsDemo decoder unmarshal) floats := by
    intro bar _
    have short : (clientFrame (floatsDemo decoder unmarshal) bar).length =
        4 + (marshalFoo bar).length := frame_length _
    have length := marshal_foo_length_le bar
    omega
  rw [← floats_passes conforms]
  exact demo_prints_passing unmarshals fits

/-- A NaN and the constant itself are printed, the next float is not. -/
theorem floats_demo_prints_sample :
    PrintsExactly (floatsDemo wireDecoder fun encoded => some (decodedBar wireDecoder encoded))
      [2143289344, 1092721050, 1092721051, 0] [2143289344, 1092721050] :=
  floats_demo_prints wire_decoder_conforms fun bar _ =>
    congrArg some (decoded_bar_marshal wire_decoder_conforms bar)

end Floats

section AddressBook

open AddressBookMessage AddressBookDecoding AddressBookFilter AddressBookEncoding
open AddressBookReceiver (cLiteral)
open PbtoolsEncoderModel (stringField messageFields encode_fields_append)

/-- What `rand.Int()` returns for the types and the digits of one book. -/
structure Random where
  type : Nat → Nat → Nat
  digit : Nat → Nat → Nat → Nat

/-- `fmt.Sprintf` with one `%d` between two texts. -/
def sprintfD (before : String) (value : Nat) (after : String) : List Byte :=
  cLiteral before ++ ((Nat.toDigits 10 value).map fun char => Fin.ofNat 256 char.toNat) ++
    cLiteral after

def getPhoneNumber (random : Random) (i k : Nat) : PhoneNumber where
  number := ((List.range 10).map fun w => sprintfD "" (random.digit i k w % 10) "").flatten
  type := random.type i k % 3

def getPerson (random : Random) (i : Nat) : Person where
  name := sprintfD "Person" i ""
  id := i
  email := sprintfD "person" i "@mail.example"
  phones := (List.range 5).map (getPhoneNumber random i)

/-- `GetInput` of the address-book client. -/
def getInput (random : Random) : AddressBook where
  people := (List.range 3).map (getPerson random)

def addressBookDemo (decoder : AddressBookDecoder) (stray : Stray)
    (unmarshal : List Byte → Option AddressBook) : Demo AddressBook where
  marshal := marshalAddressBook
  unmarshal := unmarshal
  processMessage := filterRule decoder stray

section Lengths

theorem to_digits_length {digit : Nat} (small : digit < 10) :
    (Nat.toDigits 10 digit).length = 1 := by
  revert digit
  decide

theorem sprintf_length (before after : String) {digit : Nat} (small : digit < 10) :
    (sprintfD before digit after).length = before.toList.length + 1 + after.toList.length := by
  simp only [sprintfD, cLiteral, List.length_append, List.length_map, to_digits_length small]

theorem delimited_field_length {number : Nat} (low : number < 15) {content : List Byte}
    (short : content.length < 128) :
    (encodeField ⟨number, .delimited content⟩).length = 2 + content.length := by
  have tag := @encode_varint_length_small (number * 8 + 2) (by omega)
  have size := encode_varint_length_small short
  simp only [encodeField, encodeValue, WireValue.wireType, List.length_append, tag, size]
  omega

theorem varint_field_length {number value : Nat} (low : number < 15) (small : value < 128) :
    (encodeField ⟨number, .varint value⟩).length = 2 := by
  have tag := @encode_varint_length_small (number * 8 + 0) (by omega)
  have size := encode_varint_length_small small
  simp only [encodeField, encodeValue, WireValue.wireType, List.length_append, tag, size]

theorem string_field_length {number : Nat} (low : number < 15) {content : List Byte}
    (short : content.length < 128) :
    (encodeFields (stringField number content)).length ≤ 2 + content.length := by
  rw [stringField]
  split_ifs
  · exact Nat.zero_le _
  · rw [encodeFields, List.map_singleton, List.flatten_singleton,
      delimited_field_length low short]

theorem int32_field_length {number value : Nat} (low : number < 15) (small : value < 128) :
    (encodeFields (int32Field number value)).length ≤ 2 := by
  rw [int32Field]
  split_ifs
  · exact Nat.zero_le _
  · have wrapped : ((value : Int) % 2 ^ 64).toNat = value := by omega
    rw [encodeFields, List.map_singleton, List.flatten_singleton, wrapped,
      varint_field_length low small]

theorem message_fields_length {Item : Type} {number bound : Nat} (low : number < 15)
    (short : bound < 128) {content : Item → List Byte} {items : List Item}
    (bounded : ∀ item ∈ items, (content item).length ≤ bound) :
    (encodeFields (messageFields number content items)).length ≤ items.length * (2 + bound) := by
  induction items with
  | nil => exact Nat.zero_le _
  | cons item items ih =>
      have tail := ih fun other member => bounded other (List.mem_cons_of_mem _ member)
      have own := bounded item List.mem_cons_self
      have first := @delimited_field_length number low (content item) (by omega)
      rw [messageFields, List.map_cons, encodeFields, List.map_cons, List.flatten_cons,
        List.length_append, first]
      rw [messageFields, encodeFields] at tail
      simp only [List.length_cons, Nat.add_mul]
      omega

variable (random : Random)

theorem get_phone_number_length (i k : Nat) :
    (marshalPhoneNumber (getPhoneNumber random i k)).length ≤ 14 := by
  have number : (getPhoneNumber random i k).number.length = 10 := by
    have digits : ∀ w, (sprintfD "" (random.digit i k w % 10) "").length = 1 := fun w =>
      sprintf_length "" "" (Nat.mod_lt _ (by decide))
    simp [getPhoneNumber, List.range, List.range.loop, digits]
  have first := @string_field_length 1 (by decide) (getPhoneNumber random i k).number
    (by rw [number]; decide)
  have second := @int32_field_length 2 (random.type i k % 3) (by decide) (by omega)
  rw [marshalPhoneNumber, phoneNumberFields, encode_fields_append, List.length_append]
  have type : (getPhoneNumber random i k).type = ((random.type i k % 3 : Nat) : Int) := by
    simp [getPhoneNumber]
  rw [type]
  omega

theorem get_person_length {i : Nat} (inside : i < 3) :
    (marshalPerson (getPerson random i)).length ≤ 113 := by
  have name : (getPerson random i).name.length = 7 :=
    sprintf_length "Person" "" (by omega : i < 10)
  have email : (getPerson random i).email.length = 20 :=
    sprintf_length "person" "@mail.example" (by omega : i < 10)
  have first := @string_field_length 1 (by decide) (getPerson random i).name
    (by rw [name]; decide)
  have second := @int32_field_length 2 i (by decide) (by omega)
  have third := @string_field_length 3 (by decide) (getPerson random i).email
    (by rw [email]; decide)
  have fourth := @message_fields_length _ 4 14 (by decide) (by decide) marshalPhoneNumber
    (getPerson random i).phones (by
      intro phone member
      obtain ⟨k, _, rfl⟩ := List.mem_map.mp member
      exact get_phone_number_length random i k)
  have count : (getPerson random i).phones.length = 5 := rfl
  rw [marshalPerson, personFields, encode_fields_append, encode_fields_append,
    encode_fields_append, List.length_append, List.length_append, List.length_append]
  have id : (getPerson random i).id = (i : Int) := rfl
  rw [id]
  omega

theorem get_input_length : (marshalAddressBook (getInput random)).length ≤ 345 := by
  have each : ∀ person ∈ (getInput random).people, (marshalPerson person).length ≤ 113 := by
    intro person member
    obtain ⟨i, inside, rfl⟩ := List.mem_map.mp member
    exact get_person_length random (List.mem_range.mp inside)
  have total := @message_fields_length _ 1 113 (by decide) (by decide) _ _ each
  have count : (getInput random).people.length = 3 := rfl
  rw [count] at total
  exact total

theorem get_input_in_range : InRange (getInput random) := by
  intro person member
  obtain ⟨i, inside, rfl⟩ := List.mem_map.mp member
  have bound := List.mem_range.mp inside
  constructor
  · simp only [getPerson, IsInt32]
    omega
  · intro phone other
    obtain ⟨k, _, rfl⟩ := List.mem_map.mp other
    simp only [getPhoneNumber, PhoneInRange, IsInt32]
    omega

theorem marshal_get_input_ne_nil : marshalAddressBook (getInput random) ≠ [] := by
  intro empty
  have first : getPerson random 0 ∈ (getInput random).people := List.mem_cons_self
  have field : (⟨1, .delimited (marshalPerson (getPerson random 0))⟩ : WireField) ∈
      addressBookFields (getInput random) := List.mem_map_of_mem first
  have shorter : _ < (marshalAddressBook (getInput random)).length := content_length_lt field
  rw [empty] at shorter
  exact Nat.not_lt_zero _ shorter

end Lengths

variable {decoder : AddressBookDecoder} {unmarshal : List Byte → Option AddressBook}

def twoWorkNumbers (book : AddressBook) : Bool := 2 ≤ firstPersonWorkNumbers book

theorem address_book_judged {stray : Stray} {book : AddressBook}
    (nonempty : marshalAddressBook book ≠ [])
    (small : (marshalAddressBook book).length < bufferSize) :
    verdictOf (addressBookDemo decoder stray unmarshal) book =
      filterRule decoder stray (marshalAddressBook book) :=
  verdict_of_judged nonempty small

theorem get_input_passes (conforms : decoder.Conforms) (stray : Stray) {random : Random}
    (fits : decoder.Fits (marshalAddressBook (getInput random))) :
    passes (addressBookDemo decoder stray unmarshal) (getInput random) =
      twoWorkNumbers (getInput random) := by
  have length := get_input_length random
  have encodes := encodes_marshal (get_input_in_range random) (length.trans_lt (by decide))
  have nonempty := marshal_get_input_ne_nil random
  have small : (marshalAddressBook (getInput random)).length < bufferSize :=
    length.trans_lt (by decide)
  have decoded : (decoder.decode (marshalAddressBook (getInput random))).2 = getInput random := by
    rw [decode_of_read conforms (encodes_read encodes) fits]
  rw [passes, address_book_judged nonempty small,
    filter_rule_of_read stray decoded (encodes_nonempty encodes nonempty), twoWorkNumbers]
  by_cases few : firstPersonWorkNumbers (getInput random) < 2
  · rw [if_pos few]
    simp [few]
  · rw [if_neg few]
    simp [not_lt.mp few]

def sameTypes (type : Nat) : Random where
  type _ _ := type
  digit i k w := i + k + w

end AddressBook

section HelloWorld

open HelloWorldMessage HelloWorldTcpModel HelloWorldTcpDemo

variable {decoder : PbtoolsDecoder} {unmarshal : List Byte → Option Int} {values : List Int}
  {state : DemoState Int}

/-- At no time has the hello_world server printed a value of at least 20, or one
out of order, or one behind such a value. However the demo has run so far, it can
come to rest, and then has printed all values in front of the first of at least 20. -/
theorem hello_world_demo_runs (conforms : decoder.Conforms) (unmarshals : Unmarshals unmarshal)
    (inRange : ∀ value ∈ values, IsInt32 value)
    (reachable : Reachable (helloWorldDemo decoder unmarshal) values state) :
    state.printed <+: values.takeWhile HelloWorldTcpDemo.passes ∧
      ∃ final, Relation.ReflTransGen (Step (helloWorldDemo decoder unmarshal)) state final ∧
        Quiescent (helloWorldDemo decoder unmarshal) final ∧
          final.printed = values.takeWhile HelloWorldTcpDemo.passes := by
  have roundTrips : RoundTrips (helloWorldDemo decoder unmarshal) values :=
    hello_world_round_trips unmarshals inRange
  have fits : FramesFit (helloWorldDemo decoder unmarshal) values :=
    fun value _ => hello_world_frame_length value
  rw [← hello_world_passing conforms inRange]
  have prints := demo_prints_passing roundTrips fits
  obtain ⟨final, run, quiescent⟩ := prints.can_rest state reachable
  exact ⟨prints.always state reachable, final, run, quiescent,
    prints.at_rest final (reachable.trans run) quiescent⟩

theorem hello_world_demo_runs_blocked :
    blockedState.printed <+: [3, 20, 1].takeWhile HelloWorldTcpDemo.passes ∧
      ∃ final, Relation.ReflTransGen (Step (helloWorldDemo wireDecoder unmarshalWire))
          blockedState final ∧
        Quiescent (helloWorldDemo wireDecoder unmarshalWire) final ∧
          final.printed = [3, 20, 1].takeWhile HelloWorldTcpDemo.passes :=
  hello_world_demo_runs wire_decoder_conforms unmarshal_wire_marshal (by simp [IsInt32])
    blocked_reachable

end HelloWorld

end ProtobufLkm.NetfilterTcpDemos
