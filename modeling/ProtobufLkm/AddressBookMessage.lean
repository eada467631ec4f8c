import ProtobufLkm.Proto3Wire

/-!
# The address-book message

The `switch` of every generated `_decode_inner` function says what a field stores.
The contents of a repeated field are collected by the loop and decoded behind it,
one item each. Over a reader of fields this gives a complete message its meaning;
well-formed proto3 encodings are the ones that have a meaning for the reader of
`Proto3Wire`.
-/

namespace ProtobufLkm.AddressBookMessage

open ByteCodec Proto3Wire

set_option autoImplicit false

/-- `address_book_work_e`. -/
def addressBookWorkE : Int := 2

structure PhoneNumber where
  number : List Byte
  type : Int
  deriving DecidableEq, Repr

/-- A repeated field's `items_p` points to exactly the listed items. -/
structure Person where
  name : List Byte
  id : Int
  email : List Byte
  phones : List PhoneNumber
  deriving DecidableEq, Repr

structure AddressBook where
  people : List Person
  deriving DecidableEq, Repr

def addressBookPhoneNumberInit : PhoneNumber := { number := [], type := 0 }

def addressBookPersonInit : Person := { name := [], id := 0, email := [], phones := [] }

def addressBookAddressBookInit : AddressBook := { people := [] }

inductive MessageKind where
  | phoneNumber
  | person
  | addressBook
  deriving DecidableEq, Repr

/-- The wire types of the fields of `address_book.proto`. -/
def declaredFields : MessageKind → Nat → Option Nat
  | .phoneNumber, 1 => some 2
  | .phoneNumber, 2 => some 0
  | .person, 1 => some 2
  | .person, 2 => some 0
  | .person, 3 => some 2
  | .person, 4 => some 2
  | .addressBook, 1 => some 2
  | _, _ => none

section Switch

/-- The `switch` over what the iterations of the loop read. -/
def addressBookPhoneNumberDecodeInner (iterations : List WireField) (self : PhoneNumber) :
    PhoneNumber :=
  iterations.foldl
    (fun self field =>
      match field.number, field.value with
      | 1, .delimited content => { self with number := content }
      | 2, _ => { self with type := field.int32 }
      | _, _ => self)
    self

/-- `case 4` collects the phone numbers. -/
def addressBookPersonDecodeInner (iterations : List WireField) (self : Person) : Person :=
  iterations.foldl
    (fun self field =>
      match field.number, field.value with
      | 1, .delimited content => { self with name := content }
      | 2, _ => { self with id := field.int32 }
      | 3, .delimited content => { self with email := content }
      | _, _ => self)
    self

/-- `pbtools_repeated_info_t` of a field: what its items are decoded from. -/
def repeatedInfo (number : Nat) (iterations : List WireField) : List (List Byte) :=
  iterations.filterMap fun field =>
    match field.value with
    | .delimited content => if field.number = number then some content else none
    | _ => none

theorem repeated_info_append (number : Nat) (first second : List WireField) :
    repeatedInfo number (first ++ second) =
      repeatedInfo number first ++ repeatedInfo number second :=
  List.filterMap_append

theorem repeated_info_other {number : Nat} {iterations : List WireField}
    (others : ∀ field ∈ iterations, field.number ≠ number) :
    repeatedInfo number iterations = [] := by
  rw [repeatedInfo, List.filterMap_eq_nil_iff]
  intro field member
  split
  · exact if_neg (others field member)
  · rfl

end Switch

/-- How one field of a message of the given kind is read. -/
abbrev FieldReader : Type := MessageKind → List Byte → Option (WireField × List Byte)

def wireReader : FieldReader := fun kind => readDeclared (declaredFields kind)

section Meaning

variable (read : FieldReader)

def fieldsOf (kind : MessageKind) (content : List Byte) : Option (List WireField) :=
  ItemSequence.readAll (read kind) content.length content

def phoneNumberOf (content : List Byte) : Option PhoneNumber :=
  (fieldsOf read .phoneNumber content).map fun fields =>
    addressBookPhoneNumberDecodeInner fields addressBookPhoneNumberInit

def personOf (content : List Byte) : Option Person :=
  (fieldsOf read .person content).bind fun fields =>
    ((repeatedInfo 4 fields).mapM (phoneNumberOf read)).map fun phones =>
      { addressBookPersonDecodeInner fields addressBookPersonInit with phones := phones }

def addressBookOf (encoded : List Byte) : Option AddressBook :=
  (fieldsOf read .addressBook encoded).bind fun fields =>
    ((repeatedInfo 1 fields).mapM (personOf read)).map fun people => { people := people }

end Meaning

def readPhoneNumber (content : List Byte) : Option PhoneNumber := phoneNumberOf wireReader content

def readPerson (content : List Byte) : Option Person := personOf wireReader content

def readAddressBook (encoded : List Byte) : Option AddressBook := addressBookOf wireReader encoded

/-- An encoding of the book, by any encoder: it contains the book's own fields
and reads back as the book. -/
def Encodes (book : AddressBook) (encoded : List Byte) : Prop :=
  readAddressBook encoded = some book ∧
    ∃ fields, parse encoded = some fields ∧ ∀ field ∈ fields, field.number = 1

section Extension

variable {read other : FieldReader}

variable (shorter : ∀ kind {input rest : List Byte} {field : WireField},
    other kind input = some (field, rest) → rest.length < input.length)
  (more : ∀ kind {input rest : List Byte} {field : WireField},
    read kind input = some (field, rest) → other kind input = some (field, rest))

include shorter more

theorem fields_of_mono {kind : MessageKind} {content : List Byte} {fields : List WireField}
    (found : fieldsOf read kind content = some fields) :
    fieldsOf other kind content = some fields :=
  ItemSequence.read_all_of_holds (shorter kind)
    (ItemSequence.holds_mono (more kind) (ItemSequence.holds_of_read_all found)) le_rfl

theorem phone_number_of_mono {content : List Byte} {phone : PhoneNumber}
    (found : phoneNumberOf read content = some phone) :
    phoneNumberOf other content = some phone := by
  obtain ⟨fields, parsed, stored⟩ := Option.map_eq_some_iff.mp found
  rw [phoneNumberOf, fields_of_mono shorter more parsed, Option.map_some, stored]

theorem person_of_mono {content : List Byte} {person : Person}
    (found : personOf read content = some person) : personOf other content = some person := by
  obtain ⟨fields, parsed, found⟩ := Option.bind_eq_some_iff.mp found
  obtain ⟨phones, each, stored⟩ := Option.map_eq_some_iff.mp found
  have phonesToo := ItemSequence.map_m_mono (fun _ _ => phone_number_of_mono shorter more) each
  rw [personOf, fields_of_mono shorter more parsed, Option.bind_some, phonesToo, Option.map_some,
    stored]

/-- A reader that reads more gives the same messages the same meaning. -/
theorem address_book_of_mono {encoded : List Byte} {book : AddressBook}
    (found : addressBookOf read encoded = some book) : addressBookOf other encoded = some book := by
  obtain ⟨fields, parsed, found⟩ := Option.bind_eq_some_iff.mp found
  obtain ⟨people, each, stored⟩ := Option.map_eq_some_iff.mp found
  have peopleToo := ItemSequence.map_m_mono (fun _ _ => person_of_mono shorter more) each
  rw [addressBookOf, fields_of_mono shorter more parsed, Option.bind_some, peopleToo,
    Option.map_some, stored]

end Extension

section People

theorem fields_of_wire_iff (kind : MessageKind) (content : List Byte) (fields : List WireField) :
    fieldsOf wireReader kind content = some fields ↔
      parse content = some fields ∧ ∀ field ∈ fields, takes (declaredFields kind) field = true :=
  parse_declared_iff content fields

/-- A field of the message's own number has its contents. -/
theorem repeated_info_people {field : WireField}
    (own : takes (declaredFields .addressBook) field = true) (number : field.number = 1) :
    ∃ content, repeatedInfo 1 [field] = [content] := by
  obtain ⟨fieldNumber, value⟩ := field
  simp only at number
  subst number
  cases value with
  | delimited content => exact ⟨content, rfl⟩
  | varint value => simp [takes, declaredFields, WireValue.wireType] at own
  | fixed64 bits => simp [takes, declaredFields, WireValue.wireType] at own
  | fixed32 bits => simp [takes, declaredFields, WireValue.wireType] at own

theorem people_ne_nil_iff {encoded : List Byte} {book : AddressBook} {fields : List WireField}
    (read : readAddressBook encoded = some book) (parsed : parse encoded = some fields) :
    book.people ≠ [] ↔ ∃ field ∈ fields, field.number = 1 := by
  obtain ⟨same, own, read⟩ := Option.bind_eq_some_iff.mp read
  obtain ⟨people, each, rfl⟩ := Option.map_eq_some_iff.mp read
  obtain ⟨again, takesOwn⟩ := (fields_of_wire_iff _ _ _).mp own
  obtain rfl : same = fields := Option.some.inj (again.symm.trans parsed)
  have count := ItemSequence.map_m_length each
  rw [← List.length_pos_iff, ← count, List.length_pos_iff]
  constructor
  · intro present
    by_contra none
    push Not at none
    exact present (repeated_info_other none)
  · rintro ⟨field, member, number⟩ absent
    obtain ⟨content, single⟩ := repeated_info_people (takesOwn field member) number
    obtain ⟨before, after, rfl⟩ := List.append_of_mem member
    rw [repeated_info_append, ← List.singleton_append, repeated_info_append, single] at absent
    simp at absent

theorem encodes_read {book : AddressBook} {encoded : List Byte} (encodes : Encodes book encoded) :
    readAddressBook encoded = some book := encodes.1

/-- Only the empty message encodes a book without people. -/
theorem encodes_nonempty {book : AddressBook} {encoded : List Byte} (encodes : Encodes book encoded)
    (nonempty : encoded ≠ []) : book.people ≠ [] := by
  obtain ⟨read, fields, parsed, own⟩ := encodes
  obtain ⟨field, others, split⟩ := List.exists_cons_of_ne_nil (parse_ne_nil nonempty parsed)
  have member : field ∈ fields := split ▸ List.mem_cons_self
  exact (people_ne_nil_iff read parsed).mpr ⟨field, member, own field member⟩

end People

end ProtobufLkm.AddressBookMessage
