import ProtobufLkm.AddressBookReceiver

/-!
# Laws of the address-book wire format

Encodings of books one after the other are the encoding of one book with all
their people. Fields with numbers the message does not have change nothing, in
the book, in a person or in a phone number, so neither consumer of a message can
be influenced by them.
-/

namespace ProtobufLkm.AddressBookMessageLaws

open ByteCodec Proto3Wire NetfilterHookModel AddressBookMessage AddressBookDecoding
open AddressBookFilter

set_option autoImplicit false

section Append

/-- Any two readable messages, canonical or not. -/
theorem read_address_book_append {first second : List Byte} {book more : AddressBook}
    (read : readAddressBook first = some book) (behind : readAddressBook second = some more) :
    readAddressBook (first ++ second) = some { people := book.people ++ more.people } := by
  obtain ⟨fields, parsed, found⟩ := Option.bind_eq_some_iff.mp read
  obtain ⟨people, each, rfl⟩ := Option.map_eq_some_iff.mp found
  obtain ⟨others, parsedMore, foundMore⟩ := Option.bind_eq_some_iff.mp behind
  obtain ⟨later, eachMore, rfl⟩ := Option.map_eq_some_iff.mp foundMore
  have both : fieldsOf wireReader .addressBook (first ++ second) = some (fields ++ others) :=
    parse_declared_append parsed parsedMore
  rw [readAddressBook, addressBookOf, both, Option.bind_some, repeated_info_append,
    List.mapM_append, each, eachMore]
  rfl

theorem first_person_work_numbers_append {book : AddressBook} (people : book.people ≠ [])
    (more : List Person) :
    firstPersonWorkNumbers { people := book.people ++ more } = firstPersonWorkNumbers book := by
  obtain ⟨person, others, split⟩ := List.exists_cons_of_ne_nil people
  simp only [firstPersonWorkNumbers, split, List.cons_append]

end Append

section UnknownFields

def isKnown (kind : MessageKind) (field : WireField) : Bool :=
  (declaredFields kind field.number).isSome

/-- Fields the same up to their contents, which only a field of this number has. -/
def SameField (number : Nat) (Same : List Byte → List Byte → Prop) (left right : WireField) :
    Prop :=
  left = right ∨ ∃ content other, left = ⟨number, .delimited content⟩ ∧
    right = ⟨number, .delimited other⟩ ∧ Same content other

/-- Messages with the same fields among those the message has. -/
def SameMessage (kind : MessageKind) (same : WireField → WireField → Prop)
    (left right : List Byte) : Prop :=
  ∃ fields others, parse left = some fields ∧ parse right = some others ∧
    List.Forall₂ same (fields.filter (isKnown kind)) (others.filter (isKnown kind))

def SamePhoneNumber (left right : List Byte) : Prop := SameMessage .phoneNumber Eq left right

def SamePerson (left right : List Byte) : Prop :=
  SameMessage .person (SameField 4 SamePhoneNumber) left right

/-- Two encodings of address books that differ in unknown fields only. -/
def SameAddressBook (left right : List Byte) : Prop :=
  SameMessage .addressBook (SameField 1 SamePerson) left right

section Fields

variable {kind : MessageKind} {same : WireField → WireField → Prop}

theorem takes_of_known {fields : List WireField}
    (own : ∀ field ∈ fields.filter (isKnown kind), takes (declaredFields kind) field = true) :
    ∀ field ∈ fields, takes (declaredFields kind) field = true := by
  intro field member
  cases known : declaredFields kind field.number with
  | none => rw [takes, known, Option.all_none]
  | some wireType =>
      have isOwn : isKnown kind field = true := by rw [isKnown, known, Option.isSome_some]
      exact own field (List.mem_filter.mpr ⟨member, isOwn⟩)

theorem takes_same_field {number : Nat} {Same : List Byte → List Byte → Prop}
    {left right : WireField} (alike : SameField number Same left right) :
    takes (declaredFields kind) left = takes (declaredFields kind) right := by
  rcases alike with rfl | ⟨content, other, rfl, rfl, _⟩
  · rfl
  · rfl

theorem takes_same_fields
    (agree : ∀ left right, same left right →
      takes (declaredFields kind) left = takes (declaredFields kind) right)
    {fields others : List WireField} (each : List.Forall₂ same fields others)
    (own : ∀ field ∈ fields, takes (declaredFields kind) field = true) :
    ∀ other ∈ others, takes (declaredFields kind) other = true := by
  induction each with
  | nil => exact own
  | cons first _ ih =>
      obtain ⟨head, tail⟩ := List.forall_mem_cons.mp own
      exact List.forall_mem_cons.mpr ⟨agree _ _ first ▸ head, ih tail⟩

/-- With the one message the other one is readable. -/
theorem fields_of_same
    (agree : ∀ left right, same left right →
      takes (declaredFields kind) left = takes (declaredFields kind) right)
    {left right : List Byte} (alike : SameMessage kind same left right) {fields : List WireField}
    (read : fieldsOf wireReader kind left = some fields) :
    ∃ others, fieldsOf wireReader kind right = some others ∧
      List.Forall₂ same (fields.filter (isKnown kind)) (others.filter (isKnown kind)) := by
  obtain ⟨parsedFields, others, parsed, parsedOther, each⟩ := alike
  obtain ⟨again, own⟩ := (fields_of_wire_iff _ _ _).mp read
  obtain rfl : parsedFields = fields := Option.some.inj (parsed.symm.trans again)
  refine ⟨others, (fields_of_wire_iff _ _ _).mpr ⟨parsedOther, takes_of_known ?_⟩, each⟩
  apply takes_same_fields agree each
  exact fun field member => own field (List.mem_filter.mp member).1

theorem repeated_info_known {number : Nat} (known : (declaredFields kind number).isSome = true)
    (fields : List WireField) :
    repeatedInfo number (fields.filter (isKnown kind)) = repeatedInfo number fields := by
  rw [repeatedInfo, repeatedInfo, List.filterMap_filter]
  apply List.filterMap_congr
  intro field _
  by_cases own : field.number = number
  · rw [isKnown, own, if_pos known]
  · cases field.value <;> simp [own]

/-- The items are decoded from the same contents or from alike ones. -/
theorem repeated_info_same {number : Nat} {Same : List Byte → List Byte → Prop}
    {fields others : List WireField}
    (each : List.Forall₂ (SameField number Same) fields others) :
    List.Forall₂ (fun content other => content = other ∨ Same content other)
      (repeatedInfo number fields) (repeatedInfo number others) := by
  induction each with
  | nil => exact .nil
  | @cons left right lefts rights first _ ih =>
      have split : ∀ (field : WireField) (rest : List WireField), repeatedInfo number
          (field :: rest) = repeatedInfo number [field] ++ repeatedInfo number rest :=
        fun field rest => repeated_info_append number [field] rest
      rw [split left, split right]
      apply List.rel_append _ ih
      rcases first with rfl | ⟨content, other, rfl, rfl, alike⟩
      · exact List.forall₂_same.mpr fun content _ => Or.inl rfl
      · simp [repeatedInfo, alike]

theorem map_m_same {Item : Type} {read : List Byte → Option Item}
    {Same : List Byte → List Byte → Prop}
    (agree : ∀ left right item, Same left right → read left = some item →
      read right = some item)
    {contents others : List (List Byte)}
    (each : List.Forall₂ (fun content other => content = other ∨ Same content other) contents
      others)
    {items : List Item} (found : contents.mapM read = some items) :
    others.mapM read = some items := by
  rw [ItemSequence.map_m_eq_some_iff] at found ⊢
  induction each generalizing items with
  | nil => exact found
  | cons first _ ih =>
      cases found with
      | cons head tail =>
          refine .cons ?_ (ih tail)
          rcases first with rfl | alike
          · exact head
          · exact agree _ _ _ alike head

end Fields

theorem phone_number_known (fields : List WireField) (self : PhoneNumber) :
    addressBookPhoneNumberDecodeInner (fields.filter (isKnown .phoneNumber)) self =
      addressBookPhoneNumberDecodeInner fields self := by
  rw [addressBookPhoneNumberDecodeInner, addressBookPhoneNumberDecodeInner, List.foldl_filter]
  congr 1
  funext self field
  split_ifs with known
  · rfl
  · split
    · simp_all [isKnown, declaredFields]
    · simp_all [isKnown, declaredFields]
    · rfl

theorem person_known (fields : List WireField) (self : Person) :
    addressBookPersonDecodeInner (fields.filter (isKnown .person)) self =
      addressBookPersonDecodeInner fields self := by
  rw [addressBookPersonDecodeInner, addressBookPersonDecodeInner, List.foldl_filter]
  congr 1
  funext self field
  split_ifs with known
  · rfl
  · split
    · simp_all [isKnown, declaredFields]
    · simp_all [isKnown, declaredFields]
    · simp_all [isKnown, declaredFields]
    · rfl

/-- The fields a person stores itself are not those of its phone numbers. -/
theorem person_same {Same : List Byte → List Byte → Prop} {fields others : List WireField}
    (each : List.Forall₂ (SameField 4 Same) fields others) (self : Person) :
    addressBookPersonDecodeInner fields self = addressBookPersonDecodeInner others self := by
  induction each generalizing self with
  | nil => rfl
  | cons first _ ih =>
      rcases first with rfl | ⟨content, other, rfl, rfl, _⟩
      · exact ih _
      · exact ih self

theorem read_same_phone_number {left right : List Byte} (alike : SamePhoneNumber left right)
    {phone : PhoneNumber} (read : readPhoneNumber left = some phone) :
    readPhoneNumber right = some phone := by
  obtain ⟨fields, parsed, stored⟩ := Option.map_eq_some_iff.mp read
  obtain ⟨others, parsedOther, each⟩ :=
    fields_of_same (fun _ _ equal => congrArg _ equal) alike parsed
  have known := List.forall₂_eq_eq_eq ▸ each
  rw [readPhoneNumber, phoneNumberOf, parsedOther, Option.map_some, ← stored,
    ← phone_number_known others, ← phone_number_known fields, known]

theorem read_same_person {left right : List Byte} (alike : SamePerson left right)
    {person : Person} (read : readPerson left = some person) : readPerson right = some person := by
  obtain ⟨fields, parsed, found⟩ := Option.bind_eq_some_iff.mp read
  obtain ⟨phones, phonesRead, rfl⟩ := Option.map_eq_some_iff.mp found
  obtain ⟨others, parsedOther, each⟩ := fields_of_same (fun _ _ => takes_same_field) alike parsed
  have contents := repeated_info_same each
  rw [repeated_info_known rfl, repeated_info_known rfl] at contents
  have phonesToo : (repeatedInfo 4 others).mapM readPhoneNumber = some phones := by
    refine map_m_same ?_ contents phonesRead
    intro content other phone alike read
    exact read_same_phone_number alike read
  have stored := person_same each addressBookPersonInit
  rw [person_known, person_known] at stored
  rw [readPerson, personOf, parsedOther, Option.bind_some, stored]
  exact congrArg (Option.map _) phonesToo

/-- Unknown fields at any level are not seen in the decoded book. -/
theorem read_same_address_book {left right : List Byte} (alike : SameAddressBook left right)
    {book : AddressBook} (read : readAddressBook left = some book) :
    readAddressBook right = some book := by
  obtain ⟨fields, parsed, found⟩ := Option.bind_eq_some_iff.mp read
  obtain ⟨people, peopleRead, rfl⟩ := Option.map_eq_some_iff.mp found
  obtain ⟨others, parsedOther, each⟩ := fields_of_same (fun _ _ => takes_same_field) alike parsed
  have contents := repeated_info_same each
  rw [repeated_info_known rfl, repeated_info_known rfl] at contents
  have peopleToo : (repeatedInfo 1 others).mapM readPerson = some people := by
    refine map_m_same ?_ contents peopleRead
    intro content other person alike read
    exact read_same_person alike read
  rw [readAddressBook, addressBookOf, parsedOther, Option.bind_some]
  exact congrArg (Option.map _) peopleToo

end UnknownFields

section Samples

/-- The two `WORK` numbers with a varint in the second, four and eight fixed bytes
around the phone numbers and a varint in front of the book's own field. -/
def paddedWorkNumbers : List Byte :=
  [40, 7, 10, 24, 45, 1, 0, 0, 0, 34, 2, 16, 2, 34, 4, 16, 2, 40, 1,
    49, 2, 0, 0, 0, 0, 0, 0, 0]

theorem padded_same_book : SameAddressBook twoWorkNumbers paddedWorkNumbers := by
  have phone : SamePhoneNumber [16, 2] [16, 2, 40, 1] :=
    ⟨[⟨2, .varint 2⟩], [⟨2, .varint 2⟩, ⟨5, .varint 1⟩], by decide +kernel, by decide +kernel,
      .cons rfl .nil⟩
  have person : SamePerson [34, 2, 16, 2, 34, 2, 16, 2]
      [45, 1, 0, 0, 0, 34, 2, 16, 2, 34, 4, 16, 2, 40, 1, 49, 2, 0, 0, 0, 0, 0, 0, 0] :=
    ⟨[⟨4, .delimited [16, 2]⟩, ⟨4, .delimited [16, 2]⟩],
      [⟨5, .fixed32 1⟩, ⟨4, .delimited [16, 2]⟩, ⟨4, .delimited [16, 2, 40, 1]⟩, ⟨6, .fixed64 2⟩],
      by decide +kernel, by decide +kernel,
      .cons (Or.inl rfl) (.cons (Or.inr ⟨_, _, rfl, rfl, phone⟩) .nil)⟩
  exact ⟨[⟨1, .delimited [34, 2, 16, 2, 34, 2, 16, 2]⟩],
    [⟨5, .varint 7⟩, ⟨1, .delimited [45, 1, 0, 0, 0, 34, 2, 16, 2, 34, 4, 16, 2, 40, 1,
      49, 2, 0, 0, 0, 0, 0, 0, 0]⟩],
    by decide +kernel, by decide +kernel, .cons (Or.inr ⟨_, _, rfl, rfl, person⟩) .nil⟩

end Samples

end ProtobufLkm.AddressBookMessageLaws
