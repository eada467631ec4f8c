import ProtobufLkm.AddressBookDecoding
import ProtobufLkm.PbtoolsEncoderModel

/-!
# Encoding the address-book message

`marshalAddressBook` is the proto3 encoding with its fields in ascending order,
as the Go programs send it. The generated `_encode_inner` functions write the
same bytes from the last one to the first, and the generated decoder recovers
the book from them.
-/

namespace ProtobufLkm.AddressBookEncoding

open ByteCodec Proto3Wire AddressBookMessage AddressBookDecoding PbtoolsEncoderModel

set_option autoImplicit false

section Fields

def phoneNumberFields (phone : PhoneNumber) : List WireField :=
  stringField 1 phone.number ++ int32Field 2 phone.type

def marshalPhoneNumber (phone : PhoneNumber) : List Byte := encodeFields (phoneNumberFields phone)

def personFields (person : Person) : List WireField :=
  stringField 1 person.name ++ (int32Field 2 person.id ++ (stringField 3 person.email ++
    messageFields 4 marshalPhoneNumber person.phones))

def marshalPerson (person : Person) : List Byte := encodeFields (personFields person)

def addressBookFields (book : AddressBook) : List WireField :=
  messageFields 1 marshalPerson book.people

def marshalAddressBook (book : AddressBook) : List Byte := encodeFields (addressBookFields book)

/-- The integers are values of their C types. -/
def PhoneInRange (phone : PhoneNumber) : Prop := IsInt32 phone.type

def PersonInRange (person : Person) : Prop :=
  IsInt32 person.id ∧ ∀ phone ∈ person.phones, PhoneInRange phone

def InRange (book : AddressBook) : Prop := ∀ person ∈ book.people, PersonInRange person

end Fields

section WellFormed

theorem field_length_le {fields : List WireField} {field : WireField} (member : field ∈ fields) :
    (encodeField field).length ≤ (encodeFields fields).length :=
  (List.sublist_flatten_of_mem (List.mem_map_of_mem member)).length_le

theorem content_length_lt {fields : List WireField} {number : Nat} {content : List Byte}
    (member : ⟨number, .delimited content⟩ ∈ fields) :
    content.length < (encodeFields fields).length := by
  have inside := field_length_le member
  have tag := (encode_varint_length (number * 8 + 2)).1
  simp only [encodeField, encodeValue, WireValue.wireType, List.length_append] at inside
  omega

/-- Contents are shorter than the message they are in. -/
theorem string_field_well_formed {fields : List WireField} {number : Nat} {content : List Byte}
    (isNumber : IsFieldNumber number) (inside : stringField number content ⊆ fields)
    (fits : (encodeFields fields).length < 2 ^ 31) :
    ∀ field ∈ stringField number content, field.WellFormed := by
  intro field member
  have within := inside member
  rw [stringField] at member
  split_ifs at member
  · cases member
  · rw [List.mem_singleton.mp member] at within ⊢
    exact ⟨isNumber, (content_length_lt within).trans fits⟩

theorem message_content_fits {Item : Type} {fields : List WireField} {number : Nat}
    {content : Item → List Byte} {items : List Item}
    (inside : messageFields number content items ⊆ fields)
    (fits : (encodeFields fields).length < 2 ^ 31) :
    ∀ item ∈ items, (content item).length < 2 ^ 31 := by
  intro item member
  exact (content_length_lt (inside (List.mem_map_of_mem member))).trans fits

theorem message_fields_well_formed {Item : Type} {fields : List WireField} {number : Nat}
    {content : Item → List Byte} {items : List Item} (isNumber : IsFieldNumber number)
    (inside : messageFields number content items ⊆ fields)
    (fits : (encodeFields fields).length < 2 ^ 31) :
    ∀ field ∈ messageFields number content items, field.WellFormed := by
  intro field member
  obtain ⟨item, present, rfl⟩ := List.mem_map.mp member
  exact ⟨isNumber, message_content_fits inside fits item present⟩

theorem phone_number_well_formed {phone : PhoneNumber}
    (fits : (marshalPhoneNumber phone).length < 2 ^ 31) :
    ∀ field ∈ phoneNumberFields phone, field.WellFormed := by
  have number := string_field_well_formed (by decide)
    (List.subset_append_left (stringField 1 phone.number) (int32Field 2 phone.type)) fits
  intro field member
  rcases List.mem_append.mp member with inNumber | inType
  · exact number field inNumber
  · exact int32_field_well_formed (by decide) phone.type field inType

theorem phones_inside (person : Person) :
    messageFields 4 marshalPhoneNumber person.phones ⊆ personFields person := by
  intro field member
  simp [personFields, member]

theorem person_well_formed {person : Person} (fits : (marshalPerson person).length < 2 ^ 31) :
    ∀ field ∈ personFields person, field.WellFormed := by
  have email : stringField 3 person.email ⊆ personFields person := by
    intro field member
    simp [personFields, member]
  intro field member
  simp only [personFields, List.mem_append] at member
  rcases member with inName | inId | inEmail | inPhones
  · exact string_field_well_formed (by decide) (List.subset_append_left _ _) fits field inName
  · exact int32_field_well_formed (by decide) person.id field inId
  · exact string_field_well_formed (by decide) email fits field inEmail
  · exact message_fields_well_formed (by decide) (phones_inside person) fits field inPhones

end WellFormed

section Decoding

theorem takes_string_field (kind : MessageKind) (number : Nat)
    (own : declaredFields kind number = some 2) (content : List Byte) :
    ∀ field ∈ stringField number content, takes (declaredFields kind) field = true := by
  intro field member
  rw [stringField] at member
  split_ifs at member
  · cases member
  · rw [List.mem_singleton.mp member, takes, own]
    rfl

theorem takes_int32_field (kind : MessageKind) (number : Nat)
    (own : declaredFields kind number = some 0) (value : Int) :
    ∀ field ∈ int32Field number value, takes (declaredFields kind) field = true := by
  intro field member
  rw [int32Field] at member
  split_ifs at member
  · cases member
  · rw [List.mem_singleton.mp member, takes, own]
    rfl

theorem takes_message_fields (kind : MessageKind) (number : Nat)
    (own : declaredFields kind number = some 2) {Item : Type} (content : Item → List Byte)
    (items : List Item) :
    ∀ field ∈ messageFields number content items, takes (declaredFields kind) field = true := by
  intro field member
  obtain ⟨item, _, rfl⟩ := List.mem_map.mp member
  rw [takes, own]
  rfl

theorem string_field_number {number : Nat} {content : List Byte} :
    ∀ field ∈ stringField number content, field.number = number := by
  intro field member
  rw [stringField] at member
  split_ifs at member
  · cases member
  · rw [List.mem_singleton.mp member]

theorem int32_field_number {number : Nat} {value : Int} :
    ∀ field ∈ int32Field number value, field.number = number := by
  intro field member
  rw [int32Field] at member
  split_ifs at member
  · cases member
  · rw [List.mem_singleton.mp member]

/-- Every field of a repeated message has its item's encoding. -/
theorem repeated_info_message_fields {Item : Type} (number : Nat) (content : Item → List Byte)
    (items : List Item) : repeatedInfo number (messageFields number content items) =
      items.map content := by
  induction items with
  | nil => rfl
  | cons item items ih =>
      have head : repeatedInfo number [⟨number, .delimited (content item)⟩] = [content item] := by
        simp [repeatedInfo]
      rw [messageFields, List.map_cons, ← List.singleton_append, repeated_info_append, head]
      exact congrArg (content item :: ·) ih

theorem read_marshaled {Item : Type} {read : List Byte → Option Item} {content : Item → List Byte}
    {items : List Item} (each : ∀ item ∈ items, read (content item) = some item) :
    (items.map content).mapM read = some items := by
  apply ItemSequence.map_m_eq_some_iff.mpr
  rw [List.forall₂_map_left_iff, List.forall₂_same]
  exact each

theorem read_marshal_phone_number {phone : PhoneNumber} (inRange : PhoneInRange phone)
    (fits : (marshalPhoneNumber phone).length < 2 ^ 31) :
    readPhoneNumber (marshalPhoneNumber phone) = some phone := by
  have own : ∀ field ∈ phoneNumberFields phone, takes (declaredFields .phoneNumber) field = true :=
    List.forall_mem_append.mpr ⟨takes_string_field _ 1 rfl _, takes_int32_field _ 2 rfl _⟩
  have parsed : fieldsOf wireReader .phoneNumber (marshalPhoneNumber phone) =
      some (phoneNumberFields phone) :=
    parse_declared_encode (phone_number_well_formed fits) own
  have number : addressBookPhoneNumberDecodeInner (stringField 1 phone.number)
      addressBookPhoneNumberInit = { number := phone.number, type := 0 } := by
    rw [stringField]
    split_ifs with empty
    · rw [empty]
      rfl
    · rfl
  have type : addressBookPhoneNumberDecodeInner (int32Field 2 phone.type)
      { number := phone.number, type := 0 } = phone := by
    rw [int32Field]
    split_ifs with zero
    · rw [← zero]
      rfl
    · exact congrArg (PhoneNumber.mk phone.number) (int32_of_field inRange 2)
  have stored : addressBookPhoneNumberDecodeInner (phoneNumberFields phone)
      addressBookPhoneNumberInit = phone := by
    rw [phoneNumberFields, addressBookPhoneNumberDecodeInner, List.foldl_append]
    exact (congrArg (addressBookPhoneNumberDecodeInner (int32Field 2 phone.type)) number).trans type
  rw [readPhoneNumber, phoneNumberOf, parsed, Option.map_some, stored]

theorem decode_inner_message_fields {Item : Type} (content : Item → List Byte)
    (items : List Item) (self : Person) :
    addressBookPersonDecodeInner (messageFields 4 content items) self = self := by
  induction items with
  | nil => rfl
  | cons item items ih => exact ih

theorem stored_person (person : Person) (inRange : IsInt32 person.id) :
    { addressBookPersonDecodeInner (personFields person) addressBookPersonInit with
      phones := person.phones } = person := by
  have split : ∀ first second self, addressBookPersonDecodeInner (first ++ second) self =
      addressBookPersonDecodeInner second (addressBookPersonDecodeInner first self) :=
    fun _ _ _ => List.foldl_append
  have name : addressBookPersonDecodeInner (stringField 1 person.name) addressBookPersonInit =
      { addressBookPersonInit with name := person.name } := by
    rw [stringField]
    split_ifs with empty
    · rw [empty]
      rfl
    · rfl
  have id : addressBookPersonDecodeInner (int32Field 2 person.id)
      { addressBookPersonInit with name := person.name } =
        { name := person.name, id := person.id, email := [], phones := [] } := by
    rw [int32Field]
    split_ifs with zero
    · rw [zero]
      rfl
    · exact congrArg (fun id => Person.mk person.name id [] []) (int32_of_field inRange 2)
  have email : addressBookPersonDecodeInner (stringField 3 person.email)
      { name := person.name, id := person.id, email := [], phones := [] } =
        { person with phones := [] } := by
    rw [stringField]
    split_ifs with empty
    · rw [← empty]
      rfl
    · rfl
  rw [personFields, split, split, split, name, id, email, decode_inner_message_fields]

theorem read_marshal_person {person : Person} (inRange : PersonInRange person)
    (fits : (marshalPerson person).length < 2 ^ 31) :
    readPerson (marshalPerson person) = some person := by
  have own : ∀ field ∈ personFields person, takes (declaredFields .person) field = true := by
    simp only [personFields, List.forall_mem_append]
    exact ⟨takes_string_field _ 1 rfl _, takes_int32_field _ 2 rfl _, takes_string_field _ 3 rfl _,
      takes_message_fields _ 4 rfl _ _⟩
  have parsed : fieldsOf wireReader .person (marshalPerson person) = some (personFields person) :=
    parse_declared_encode (person_well_formed fits) own
  have contents : repeatedInfo 4 (personFields person) = person.phones.map marshalPhoneNumber := by
    have name : repeatedInfo 4 (stringField 1 person.name) = [] :=
      repeated_info_other fun field member => by rw [string_field_number field member]; decide
    have id : repeatedInfo 4 (int32Field 2 person.id) = [] :=
      repeated_info_other fun field member => by rw [int32_field_number field member]; decide
    have email : repeatedInfo 4 (stringField 3 person.email) = [] :=
      repeated_info_other fun field member => by rw [string_field_number field member]; decide
    simp only [personFields, repeated_info_append, name, id, email, List.nil_append]
    exact repeated_info_message_fields 4 marshalPhoneNumber person.phones
  have phones : (person.phones.map marshalPhoneNumber).mapM readPhoneNumber =
      some person.phones :=
    read_marshaled fun phone member => read_marshal_phone_number (inRange.2 phone member)
      (message_content_fits (phones_inside person) fits phone member)
  rw [readPerson, personOf, parsed, Option.bind_some, contents]
  exact (congrArg (Option.map _) phones).trans (congrArg some (stored_person person inRange.1))

/-- The canonical encoding encodes the book, so decoding recovers it. -/
theorem encodes_marshal {book : AddressBook} (inRange : InRange book)
    (fits : (marshalAddressBook book).length < 2 ^ 31) :
    Encodes book (marshalAddressBook book) := by
  have inside := List.Subset.refl (addressBookFields book)
  have wellFormed := message_fields_well_formed (by decide : IsFieldNumber 1) inside fits
  have parsed : fieldsOf wireReader .addressBook (marshalAddressBook book) =
      some (addressBookFields book) :=
    parse_declared_encode wellFormed (takes_message_fields _ 1 rfl _ _)
  have people : (book.people.map marshalPerson).mapM readPerson = some book.people :=
    read_marshaled fun person member => read_marshal_person (inRange person member)
      (message_content_fits inside fits person member)
  refine ⟨?_, addressBookFields book, parse_encode_fields wellFormed, ?_⟩
  · rw [readAddressBook, addressBookOf, parsed, Option.bind_some, addressBookFields,
      repeated_info_message_fields]
    exact congrArg (Option.map _) people
  · intro field member
    obtain ⟨person, _, rfl⟩ := List.mem_map.mp member
    rfl

end Decoding

section Generated

variable {Encoder : Type} (pbtools : PbtoolsEncoder Encoder)

def addressBookPhoneNumberEncodeInner (encoder : Encoder) (self : PhoneNumber) : Encoder :=
  let encoder := pbtools.writeEnum encoder 2 self.type
  pbtools.writeString encoder 1 self.number

def addressBookPhoneNumberEncodeRepeatedInner (encoder : Encoder) (fieldNumber : Nat)
    (repeated : List PhoneNumber) : Encoder :=
  pbtools.encodeRepeatedInner encoder fieldNumber repeated
    (addressBookPhoneNumberEncodeInner pbtools)

def addressBookPersonEncodeInner (encoder : Encoder) (self : Person) : Encoder :=
  let encoder := addressBookPhoneNumberEncodeRepeatedInner pbtools encoder 4 self.phones
  let encoder := pbtools.writeString encoder 3 self.email
  let encoder := pbtools.writeInt32 encoder 2 self.id
  pbtools.writeString encoder 1 self.name

def addressBookPersonEncodeRepeatedInner (encoder : Encoder) (fieldNumber : Nat)
    (repeated : List Person) : Encoder :=
  pbtools.encodeRepeatedInner encoder fieldNumber repeated (addressBookPersonEncodeInner pbtools)

def addressBookAddressBookEncodeInner (encoder : Encoder) (self : AddressBook) : Encoder :=
  addressBookPersonEncodeRepeatedInner pbtools encoder 1 self.people

def addressBookAddressBookEncode (self : AddressBook) (size : Nat) : Int × List Byte :=
  pbtools.messageEncode (addressBookAddressBookEncodeInner pbtools · self) size

end Generated

section CStrings

/-- The texts are what a C string can hold. -/
def PhoneStrings (phone : PhoneNumber) : Prop := 0 ∉ phone.number

def PersonStrings (person : Person) : Prop :=
  0 ∉ person.name ∧ 0 ∉ person.email ∧ ∀ phone ∈ person.phones, PhoneStrings phone

def CStrings (book : AddressBook) : Prop := ∀ person ∈ book.people, PersonStrings person

end CStrings

section RoundTrip

variable {Encoder : Type} {pbtools : PbtoolsEncoder Encoder} (conforms : pbtools.Conforms)

include conforms

theorem phone_number_prepends {phone : PhoneNumber} (inRange : PhoneInRange phone)
    (strings : PhoneStrings phone) :
    pbtools.Prepends (addressBookPhoneNumberEncodeInner pbtools · phone)
      (marshalPhoneNumber phone) := by
  rw [marshalPhoneNumber, phoneNumberFields, encode_fields_append]
  exact prepends_comp (conforms.write_string 1 phone.number (by decide) strings)
    (conforms.write_enum 2 phone.type (by decide) inRange)

theorem person_prepends {person : Person} (inRange : PersonInRange person)
    (strings : PersonStrings person) :
    pbtools.Prepends (addressBookPersonEncodeInner pbtools · person) (marshalPerson person) := by
  have phones : pbtools.Prepends
      (addressBookPhoneNumberEncodeRepeatedInner pbtools · 4 person.phones)
      (encodeFields (messageFields 4 marshalPhoneNumber person.phones)) := by
    apply conforms.encode_repeated _ _ _ _ (by decide)
    intro phone member
    exact phone_number_prepends conforms (inRange.2 phone member) (strings.2.2 phone member)
  have email := prepends_comp (conforms.write_string 3 person.email (by decide) strings.2.1) phones
  have id := prepends_comp (conforms.write_int32 2 person.id (by decide) inRange.1) email
  rw [marshalPerson, personFields, encode_fields_append, encode_fields_append,
    encode_fields_append]
  exact prepends_comp (conforms.write_string 1 person.name (by decide) strings.1) id

theorem address_book_prepends {book : AddressBook} (inRange : InRange book)
    (strings : CStrings book) :
    pbtools.Prepends (addressBookAddressBookEncodeInner pbtools · book)
      (marshalAddressBook book) := by
  apply conforms.encode_repeated _ _ _ _ (by decide)
  intro person member
  exact person_prepends conforms (inRange person member) (strings person member)

end RoundTrip

section Samples

/-- A book with every kind of field and a default in each message. -/
def sampleBook : AddressBook where
  people := [
    { name := [75], id := -1, email := [], phones := [⟨[49, 50], 2⟩, ⟨[], 1⟩] },
    { name := [], id := 0, email := [64], phones := [] }]

end Samples

end ProtobufLkm.AddressBookEncoding
