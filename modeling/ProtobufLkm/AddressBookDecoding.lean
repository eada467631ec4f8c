import ProtobufLkm.AddressBookMessage
import ProtobufLkm.ResourceAttempt

/-!
# The generated address-book decoder

The loops of the generated `_decode_inner` functions over the pbtools runtime. The
runtime is a parameter: how it reads a field, what an iteration stores whose read
fails, which of its requests for workspace memory are refused. Texts are copied
into the workspace, and the items of a repeated field are allocated there. After
an error nothing more is read. A decode without an error comes to the meaning of
the message; what it needs of the workspace depends on the encoding.
-/

namespace ProtobufLkm.AddressBookDecoding

open ByteCodec Proto3Wire ResourceAttempt AddressBookMessage

set_option autoImplicit false

/-- The pbtools runtime. `failing` is what the iteration stores in which a read
fails, as if it had read that field; `refuses` answers the requests for memory made
while a message is decoded, in their order; `resumes` says whether the items of a
repeated field are still allocated after an error in front of them. -/
structure AddressBookDecoder where
  read : FieldReader
  read_shorter : ∀ (kind : MessageKind) {input rest : List Byte} {field : WireField},
    read kind input = some (field, rest) → rest.length < input.length
  failing : MessageKind → List Byte → Option WireField
  refuses : List Byte → Nat → Bool
  resumes : Bool
  error : List Byte → Int
  error_negative : ∀ encoded, error encoded < 0

/-- The fields `pbtools_decoder_read_string` reads. -/
def isText (kind : MessageKind) (field : WireField) : Bool :=
  match kind, field.number, field.value with
  | .phoneNumber, 1, .delimited _ => true
  | .person, 1, .delimited _ => true
  | .person, 3, .delimited _ => true
  | _, _, _ => false

section Decode

variable (decoder : AddressBookDecoder)

def storeText (kind : MessageKind) (field : WireField) : Attempt Bool :=
  if isText kind field then .request else .pure true

/-- `while (pbtools_decoder_available(decoder_p))`: what the iterations read. -/
def decodeLoop (kind : MessageKind) : Nat → List Byte → Attempt (List WireField)
  | _, [] => .pure []
  | 0, _ :: _ => .fail []
  | fuel + 1, input =>
      .unlessFailed [] <|
        match decoder.read kind input with
        | none => .fail (decoder.failing kind input).toList
        | some (field, rest) =>
            (storeText kind field).bind fun stored =>
              if stored then (decodeLoop kind fuel rest).map (field :: ·) else .pure []

def decodeIterations (kind : MessageKind) (content : List Byte) : Attempt (List WireField) :=
  decodeLoop decoder kind content.length content

/-- `pbtools_decode_repeated_inner`: all items are allocated, then one is decoded
after the other. Those behind an error keep their defaults. -/
def decodeRepeatedInner {Item : Type} (decodeInner : List Byte → Attempt Item)
    (repeatedInfo : List (List Byte)) : Attempt (List Item) :=
  if repeatedInfo = [] then .pure []
  else
    Attempt.hasFailed.bind fun failed =>
      if failed && !decoder.resumes then .pure []
      else
        Attempt.request.bind fun allocated =>
          if allocated then .each decodeInner repeatedInfo else .pure []

def decodePhoneNumber (content : List Byte) : Attempt PhoneNumber :=
  (decodeIterations decoder .phoneNumber content).map fun iterations =>
    addressBookPhoneNumberDecodeInner iterations addressBookPhoneNumberInit

def decodePerson (content : List Byte) : Attempt Person :=
  (decodeIterations decoder .person content).bind fun iterations =>
    (decodeRepeatedInner decoder (decodePhoneNumber decoder) (repeatedInfo 4 iterations)).map
      fun phones =>
        { addressBookPersonDecodeInner iterations addressBookPersonInit with phones := phones }

def decodeAddressBook (encoded : List Byte) : Attempt AddressBook :=
  (decodeIterations decoder .addressBook encoded).bind fun iterations =>
    (decodeRepeatedInner decoder (decodePerson decoder) (repeatedInfo 1 iterations)).map
      fun people => { people := people }

end Decode

/-- `address_book_address_book_decode` into a fresh message: its result and the
message it leaves. -/
def AddressBookDecoder.decode (decoder : AddressBookDecoder) (encoded : List Byte) :
    Int × AddressBook :=
  let (progress, book) := (decodeAddressBook decoder encoded).run (decoder.refuses encoded) .start
  (if progress.failed then decoder.error encoded else encoded.length, book)

/-- The workspace grants every request that decoding this encoding makes. -/
def AddressBookDecoder.Fits (decoder : AddressBookDecoder) (encoded : List Byte) : Prop :=
  ∀ number < ((decodeAddressBook decoder encoded).run granting .start).1.requests,
    decoder.refuses encoded number = false

/-- Every field at every depth can be read. -/
def AddressBookDecoder.Reads (decoder : AddressBookDecoder) (encoded : List Byte) : Prop :=
  (addressBookOf decoder.read encoded).isSome = true

/-- What proto3 lets an encoder write is read as proto3 says. -/
def AddressBookDecoder.Conforms (decoder : AddressBookDecoder) : Prop :=
  ∀ (kind : MessageKind) {input rest : List Byte} {field : WireField},
    wireReader kind input = some (field, rest) → decoder.read kind input = some (field, rest)

section Meaning

variable (decoder : AddressBookDecoder)

theorem means_store_text (kind : MessageKind) (field : WireField) :
    Means (storeText kind field) (some true) := by
  rw [storeText]
  split_ifs
  · exact means_request
  · exact means_pure true

theorem means_decode_loop (kind : MessageKind) (fuel : Nat) (input : List Byte) :
    Means (decodeLoop decoder kind fuel input)
      (ItemSequence.readAll (decoder.read kind) fuel input) := by
  induction fuel generalizing input with
  | zero =>
      cases input with
      | nil => exact means_pure []
      | cons byte others => exact means_fail []
  | succ fuel ih =>
      cases input with
      | nil => exact means_pure []
      | cons byte others =>
          rw [ItemSequence.read_all_cons (List.cons_ne_nil _ _), decodeLoop]
          · apply means_unless_failed
            cases decoder.read kind (byte :: others) with
            | none => exact means_fail _
            | some pair =>
                obtain ⟨field, rest⟩ := pair
                refine @means_bind _ _ _ _ _ (fun _ => (ItemSequence.readAll (decoder.read kind)
                  fuel rest).map (field :: ·)) (means_store_text kind field) ?_
                intro stored same
                rw [← Option.some.inj same, if_pos rfl]
                exact means_map (field :: ·) (ih rest)
          · simp

theorem means_decode_repeated {Item : Type} {decodeInner : List Byte → Attempt Item}
    {meaning : List Byte → Option Item} (means : ∀ content, Means (decodeInner content)
      (meaning content)) (contents : List (List Byte)) :
    Means (decodeRepeatedInner decoder decodeInner contents) (contents.mapM meaning) := by
  rw [decodeRepeatedInner]
  split_ifs with empty
  · rw [empty]
    exact means_pure []
  · intro progress kept
    rw [bind_run, has_failed_run]
    simp only [kept, Bool.false_and, Bool.false_eq_true, if_false]
    refine @means_bind _ _ _ _ _ (fun _ => contents.mapM meaning) means_request ?_ progress kept
    intro allocated same
    rw [← Option.some.inj same]
    exact means_each means contents

theorem means_decode_phone_number (content : List Byte) :
    Means (decodePhoneNumber decoder content) (phoneNumberOf decoder.read content) :=
  means_map _ (means_decode_loop decoder .phoneNumber content.length content)

theorem means_decode_person (content : List Byte) :
    Means (decodePerson decoder content) (personOf decoder.read content) :=
  means_bind (means_decode_loop decoder .person content.length content) fun fields _ =>
    means_map _ (means_decode_repeated decoder (means_decode_phone_number decoder)
      (repeatedInfo 4 fields))

theorem means_decode_address_book (encoded : List Byte) :
    Means (decodeAddressBook decoder encoded) (addressBookOf decoder.read encoded) :=
  means_bind (means_decode_loop decoder .addressBook encoded.length encoded) fun fields _ =>
    means_map _ (means_decode_repeated decoder (means_decode_person decoder)
      (repeatedInfo 1 fields))

/-- Decoding reports no error exactly for messages that can be read and fit. -/
theorem decode_succeeds_iff (encoded : List Byte) :
    0 ≤ (decoder.decode encoded).1 ↔ decoder.Reads encoded ∧ decoder.Fits encoded := by
  have kept := @attempt_kept_iff _ _ _ (means_decode_address_book decoder encoded)
    (decoder.refuses encoded) .start rfl
  have result : 0 ≤ (decoder.decode encoded).1 ↔ ((decodeAddressBook decoder encoded).run
      (decoder.refuses encoded) .start).1.failed = false := by
    have negative := decoder.error_negative encoded
    simp only [AddressBookDecoder.decode]
    split_ifs with failed
    · exact iff_of_false (not_le.mpr negative) (by simp [failed])
    · exact iff_of_true (Int.natCast_nonneg _) (eq_false_of_ne_true failed)
  rw [result, kept]
  apply and_congr_right
  intro _
  exact ⟨fun free number below => free number (Nat.zero_le _) below,
    fun free number _ below => free number below⟩

theorem decode_of_meaning {encoded : List Byte} {book : AddressBook}
    (meaning : addressBookOf decoder.read encoded = some book) (fits : decoder.Fits encoded) :
    decoder.decode encoded = ((encoded.length : Int), book) := by
  have means := means_decode_address_book decoder encoded
  rw [meaning] at means
  have kept := (@attempt_kept_iff _ _ _ means (decoder.refuses encoded) .start rfl).mpr
    ⟨rfl, fun number _ below => fits number below⟩
  have stored := attempt_result means rfl kept
  simp only [AddressBookDecoder.decode, kept, stored, Bool.false_eq_true, if_false]

variable {decoder}

theorem meaning_of_read (conforms : decoder.Conforms) {encoded : List Byte} {book : AddressBook}
    (read : readAddressBook encoded = some book) :
    addressBookOf decoder.read encoded = some book :=
  address_book_of_mono decoder.read_shorter conforms read

/-- A well-formed encoding that the workspace suffices for is decoded. -/
theorem decode_of_read (conforms : decoder.Conforms) {encoded : List Byte} {book : AddressBook}
    (read : readAddressBook encoded = some book) (fits : decoder.Fits encoded) :
    decoder.decode encoded = ((encoded.length : Int), book) :=
  decode_of_meaning decoder (meaning_of_read conforms read) fits

end Meaning

section People

variable (decoder : AddressBookDecoder) (encoded : List Byte)

/-- What the loop over the book's own fields reads: the fields in front of the
first one that cannot be read, and what is stored instead of that one. -/
def bookFields : List WireField × Bool :=
  let (fields, rest) := frontFields (decoder.read .addressBook) encoded
  if rest = [] then (fields, false)
  else (fields ++ (decoder.failing .addressBook rest).toList, true)

/-- The people of the message, as far as the book's own fields can be read. -/
def peopleContents : List (List Byte) := repeatedInfo 1 (bookFields decoder encoded).1

/-- The phone numbers of a person, as far as the person's own fields can be read. -/
def phoneContents (content : List Byte) : List (List Byte) :=
  repeatedInfo 4 (frontFields (decoder.read .person) content).1

/-- The runtime allocates the people: it has the memory, and an error among the
book's own fields does not keep it from that. -/
def MakesPeople : Prop :=
  ((bookFields decoder encoded).2 = false ∨ decoder.resumes = true) ∧
    decoder.refuses encoded 0 = false

instance : Decidable (MakesPeople decoder encoded) :=
  inferInstanceAs (Decidable (_ ∧ _))

variable {decoder encoded}

theorem book_loop_run (refuses : Nat → Bool) {fuel : Nat} {input : List Byte}
    (enough : input.length ≤ fuel) {progress : Progress} (kept : progress.failed = false) :
    (decodeLoop decoder .addressBook fuel input).run refuses progress =
      match ItemSequence.readFront (decoder.read .addressBook) fuel input with
      | (fields, []) => (progress, fields)
      | (fields, rest) => ({ progress with failed := true },
          fields ++ (decoder.failing .addressBook rest).toList) := by
  induction fuel generalizing input with
  | zero =>
      rw [List.length_eq_zero_iff.mp (Nat.le_zero.mp enough)]
      exact pure_run [] refuses progress
  | succ fuel ih =>
      cases input with
      | nil => exact pure_run [] refuses progress
      | cons byte others =>
          rw [ItemSequence.read_front_cons (List.cons_ne_nil _ _), decodeLoop, unless_failed_run,
            if_neg (by simp [kept])]
          · cases found : decoder.read .addressBook (byte :: others) with
            | none => exact fail_run _ refuses progress
            | some pair =>
                have smaller := decoder.read_shorter .addressBook found
                have tail := @ih pair.2 (by omega)
                have plain : storeText .addressBook pair.1 = .pure true := rfl
                simp only [plain, bind_run, pure_run, if_true, map_run, tail]
                cases (ItemSequence.readFront (decoder.read .addressBook) fuel pair.2) with
                | mk fields rest => cases rest <;> rfl
          · simp

theorem book_iterations_run (refuses : Nat → Bool) :
    (decodeIterations decoder .addressBook encoded).run refuses .start =
      ({ requests := 0, failed := (bookFields decoder encoded).2 },
        (bookFields decoder encoded).1) := by
  rw [decodeIterations, book_loop_run refuses le_rfl rfl, bookFields, frontFields]
  cases ItemSequence.readFront (decoder.read .addressBook) encoded.length encoded with
  | mk fields rest => cases rest <;> rfl

/-- Without people in the message or without the memory for them there are none. -/
theorem decode_without_people (none : peopleContents decoder encoded = [] ∨
    ¬MakesPeople decoder encoded) : (decoder.decode encoded).2.people = [] := by
  simp only [AddressBookDecoder.decode, decodeAddressBook, bind_run, map_run, book_iterations_run,
    decodeRepeatedInner]
  rw [MakesPeople] at none
  rw [peopleContents] at none
  split_ifs with absent
  · rw [pure_run]
  · simp only [bind_run, has_failed_run]
    split_ifs with stops
    · rw [pure_run]
    · have refused : decoder.refuses encoded 0 = true := by
        simp only [Bool.and_eq_true, Bool.not_eq_true'] at stops
        grind
      simp [Attempt.request, refused]

theorem decode_with_people (present : peopleContents decoder encoded ≠ [])
    (makes : MakesPeople decoder encoded) :
    (decoder.decode encoded).2.people =
      ((Attempt.each (decodePerson decoder) (peopleContents decoder encoded)).run
        (decoder.refuses encoded)
        { requests := 1, failed := (bookFields decoder encoded).2 }).2 := by
  obtain ⟨onward, granted⟩ := makes
  have goes : ((bookFields decoder encoded).2 && !decoder.resumes) = false := by
    rcases onward with kept | resumes
    · rw [kept, Bool.false_and]
    · rw [resumes, Bool.not_true, Bool.and_false]
  rw [peopleContents] at present ⊢
  simp only [AddressBookDecoder.decode, decodeAddressBook, bind_run, map_run, book_iterations_run,
    decodeRepeatedInner, if_neg present, has_failed_run, goes, Bool.false_eq_true, if_false]
  simp [Attempt.request, granted]

theorem decode_people_length (makes : MakesPeople decoder encoded) :
    (decoder.decode encoded).2.people.length = (peopleContents decoder encoded).length := by
  by_cases present : peopleContents decoder encoded = []
  · rw [decode_without_people (Or.inl present), present]
    rfl
  · rw [decode_with_people present makes, each_length]

/-- What can be read has one person for each of its people fields. -/
theorem people_of_meaning {book : AddressBook}
    (meaning : addressBookOf decoder.read encoded = some book) :
    List.Forall₂ (fun content person => personOf decoder.read content = some person)
      (peopleContents decoder encoded) book.people := by
  obtain ⟨fields, parsed, found⟩ := Option.bind_eq_some_iff.mp meaning
  obtain ⟨people, each, rfl⟩ := Option.map_eq_some_iff.mp found
  have front : frontFields (decoder.read .addressBook) encoded = (fields, []) :=
    (ItemSequence.read_all_eq_some_iff _ _ _).mp parsed
  have own : bookFields decoder encoded = (fields, false) := by
    rw [bookFields, front]
    rfl
  rw [peopleContents, own]
  exact ItemSequence.map_m_eq_some_iff.mp each

theorem phones_of_meaning {content : List Byte} {person : Person}
    (meaning : personOf decoder.read content = some person) :
    person.phones.length = (phoneContents decoder content).length := by
  obtain ⟨fields, parsed, found⟩ := Option.bind_eq_some_iff.mp meaning
  obtain ⟨phones, each, rfl⟩ := Option.map_eq_some_iff.mp found
  have front : frontFields (decoder.read .person) content = (fields, []) :=
    (ItemSequence.read_all_eq_some_iff _ _ _).mp parsed
  rw [phoneContents, front]
  exact (ItemSequence.map_m_length each).symm

end People

/-- A runtime that takes well-formed fields only and has all the memory it asks
for. -/
def wireBookDecoder : AddressBookDecoder where
  read := wireReader
  read_shorter _ := read_declared_shorter
  failing _ _ := none
  refuses _ _ := false
  resumes := false
  error _ := -1
  error_negative _ := by decide

theorem wire_book_decoder_conforms : wireBookDecoder.Conforms := fun _ _ _ _ found => found

theorem wire_book_decoder_fits (encoded : List Byte) : wireBookDecoder.Fits encoded :=
  fun _ _ => rfl

end ProtobufLkm.AddressBookDecoding
