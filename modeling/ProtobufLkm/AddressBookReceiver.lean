import ProtobufLkm.AddressBookItemBounds
import ProtobufLkm.UdpDatagramSemantics

/-!
# The address-book UDP receiver

`process_message` returns unless there is exactly one person, and only warns
about everything else. It stores the decode result in `size` and never looks at
it. A run lists what is read of the message and which `WARN_ON` fires.
-/

namespace ProtobufLkm.AddressBookReceiver

open ByteCodec AddressBookMessage AddressBookDecoding AddressBookItemBounds
open AddressBookFilter (Stray ItemAccess noStray)

set_option autoImplicit false

/-- `address_book_home_e`. -/
def addressBookHomeE : Int := 1

def cLiteral (text : String) : List Byte := text.toList.map fun char => Fin.ofNat 256 char.toNat

/-- `strcmp(text, literal) != 0` for a stored string: it ends at its first NUL. -/
def differs (text : List Byte) (literal : String) : Bool :=
  text.takeWhile (· ≠ 0) ≠ cLiteral literal

inductive PersonField where
  | nameP
  | id
  | emailP
  | phonesLength
  deriving DecidableEq, Repr

inductive Check where
  | person (field : PersonField)
  | number (index : Nat)
  | type (index : Nat)
  deriving DecidableEq, Repr

inductive ReceiverEvent where
  | item (access : ItemAccess)
  | read (field : PersonField)
  | warn (check : Check)
  deriving DecidableEq, Repr

def warnOn (condition : Bool) (check : Check) : List ReceiverEvent :=
  if condition then [.warn check] else []

def checkField (field : PersonField) (condition : Bool) : List ReceiverEvent :=
  .read field :: warnOn condition (.person field)

/-- One phone number of a person: its access and its two warnings. -/
def checkPhone (person : Person) (stray : Nat → PhoneNumber) (index : Nat) (number : String)
    (type : Int) : List ReceiverEvent :=
  let phone := person.phones.getD index (stray index)
  .item (.phones index person.phones.length) ::
    (warnOn (differs phone.number number) (.number index) ++
      warnOn (phone.type ≠ type) (.type index))

def checkPerson (person : Person) (stray : Nat → PhoneNumber) : List ReceiverEvent :=
  checkField .nameP (differs person.name "Kalle Kula") ++
    checkField .id (person.id ≠ 56) ++
    [.read .id] ++
    checkField .emailP (differs person.email "kalle.kula@foobar.com") ++
    checkField .phonesLength (person.phones.length ≠ 2) ++
    checkPhone person stray 0 "+46701232345" addressBookHomeE ++
    checkPhone person stray 1 "+46999999999" addressBookWorkE

/-- Without a message in the workspace nothing is decoded. -/
def processMessage (decoder : AddressBookDecoder) (created : Bool) (stray : Stray)
    (message : List Byte) : List ReceiverEvent :=
  if created then
    let book := (decoder.decode message).2
    if book.people.length ≠ 1 then []
    else
      .item (.people 0 book.people.length) ::
        checkPerson (book.people.getD 0 (stray.person 0)) stray.phone
  else []

/-- Items are accessed inside their arrays, and a person is only looked at after
a successful decode. -/
structure SafeRun (result : Int) (events : List ReceiverEvent) : Prop where
  in_range : ∀ access, .item access ∈ events → InRange access
  decoded : ∀ field, .read field ∈ events → 0 ≤ result

def ReceiverSafe (decoder : AddressBookDecoder) (created : Bool) (message : List Byte) : Prop :=
  ∀ stray, SafeRun (decoder.decode message).1 (processMessage decoder created stray message)

theorem safe_run_nil (result : Int) : SafeRun result [] := by
  constructor
  · intro access member
    cases member
  · intro field member
    cases member

theorem not_mem_warn_on {condition : Bool} {check : Check} {event : ReceiverEvent}
    (other : ∀ check, event ≠ .warn check) : event ∉ warnOn condition check := by
  intro member
  rw [warnOn] at member
  split_ifs at member
  · exact other check (List.mem_singleton.mp member)
  · cases member

theorem item_mem_check_field {field : PersonField} {condition : Bool} {access : ItemAccess} :
    ReceiverEvent.item access ∉ checkField field condition := by
  intro member
  rcases List.mem_cons.mp member with same | warned
  · cases same
  · exact not_mem_warn_on (fun _ same => by cases same) warned

theorem item_mem_check_phone {person : Person} {stray : Nat → PhoneNumber} {index : Nat}
    {number : String} {type : Int} {access : ItemAccess} :
    ReceiverEvent.item access ∈ checkPhone person stray index number type ↔
      access = .phones index person.phones.length := by
  simp only [checkPhone, List.mem_cons, List.mem_append, ReceiverEvent.item.injEq]
  apply or_iff_left
  rintro (warned | warned)
  · exact not_mem_warn_on (fun _ same => by cases same) warned
  · exact not_mem_warn_on (fun _ same => by cases same) warned

/-- Two phone numbers are accessed, however many the person has. -/
theorem item_mem_check_person {person : Person} {stray : Nat → PhoneNumber} {access : ItemAccess} :
    ReceiverEvent.item access ∈ checkPerson person stray ↔
      access = .phones 0 person.phones.length ∨ access = .phones 1 person.phones.length := by
  simp only [checkPerson, List.mem_append, item_mem_check_field, item_mem_check_phone,
    List.mem_singleton, reduceCtorEq, or_self, false_or]

theorem read_mem_check_person (person : Person) (stray : Nat → PhoneNumber) :
    ReceiverEvent.read .nameP ∈ checkPerson person stray := by
  simp [checkPerson, checkField]

section Receive

variable {decoder : AddressBookDecoder} {message : List Byte}

theorem process_message_returns (stray : Stray)
    (several : (decoder.decode message).2.people.length ≠ 1) :
    processMessage decoder true stray message = [] := by
  rw [processMessage, if_pos rfl]
  exact if_pos several

theorem process_message_person (stray : Stray) {person : Person}
    (single : (decoder.decode message).2.people = [person]) :
    processMessage decoder true stray message =
      .item (.people 0 1) :: checkPerson person stray.phone := by
  simp only [processMessage, single]
  rfl

theorem safe_run_person_iff (result : Int) (person : Person) (stray : Nat → PhoneNumber) :
    SafeRun result (.item (.people 0 1) :: checkPerson person stray) ↔
      0 ≤ result ∧ 2 ≤ person.phones.length := by
  constructor
  · intro safe
    have second : InRange (.phones 1 person.phones.length) := by
      apply safe.in_range
      exact List.mem_cons_of_mem _ (item_mem_check_person.mpr (Or.inr rfl))
    exact ⟨safe.decoded .nameP (List.mem_cons_of_mem _ (read_mem_check_person person stray)), second⟩
  · rintro ⟨decoded, phones⟩
    constructor
    · intro access member
      rcases List.mem_cons.mp member with same | checked
      · cases same
        exact Nat.one_pos
      · rcases item_mem_check_person.mp checked with rfl | rfl
        · exact Nat.lt_of_succ_lt phones
        · exact phones
    · intro field _
      exact decoded

end Receive

theorem receiver_safe_iff_decoded (decoder : AddressBookDecoder) (created : Bool)
    (message : List Byte) :
    ReceiverSafe decoder created message ↔
      created = false ∨ ∀ person, (decoder.decode message).2.people = [person] →
        0 ≤ (decoder.decode message).1 ∧ 2 ≤ person.phones.length := by
  cases created with
  | false => exact iff_of_true (fun _ => safe_run_nil _) (Or.inl rfl)
  | true =>
      rw [or_iff_right Bool.true_eq_false.mp]
      constructor
      · intro safe person single
        have run := safe noStray
        rw [process_message_person noStray single] at run
        exact (safe_run_person_iff _ person _).mp run
      · intro condition stray
        by_cases several : (decoder.decode message).2.people.length ≠ 1
        · rw [process_message_returns stray several]
          exact safe_run_nil _
        · obtain ⟨person, single⟩ := List.length_eq_one_iff.mp (not_not.mp several)
          rw [process_message_person stray single]
          exact (safe_run_person_iff _ person _).mpr (condition person single)

/-- With one person in front of the first unreadable field of the book, that
person is looked at: everything has to be readable and to fit, and two phone
numbers are needed. -/
theorem single_person_safe_iff {decoder : AddressBookDecoder} {message content : List Byte}
    (single : peopleContents decoder message = [content]) (makes : MakesPeople decoder message) :
    (∀ person, (decoder.decode message).2.people = [person] →
      0 ≤ (decoder.decode message).1 ∧ 2 ≤ person.phones.length) ↔
        decoder.Reads message ∧ decoder.Fits message ∧
          2 ≤ (phoneContents decoder content).length := by
  have count := decode_people_length makes
  rw [single] at count
  obtain ⟨person, one⟩ := List.length_eq_one_iff.mp count
  have phones : decoder.Reads message → decoder.Fits message →
      person.phones.length = (phoneContents decoder content).length := by
    intro reads fits
    obtain ⟨book, meaning⟩ := Option.isSome_iff_exists.mp reads
    have each := people_of_meaning meaning
    rw [decode_of_meaning decoder meaning fits] at one
    simp only at one
    rw [single, one] at each
    cases each with
    | cons first _ => exact phones_of_meaning first
  constructor
  · intro safe
    obtain ⟨succeeds, enough⟩ := safe person one
    obtain ⟨reads, fits⟩ := (decode_succeeds_iff decoder message).mp succeeds
    exact ⟨reads, fits, phones reads fits ▸ enough⟩
  · rintro ⟨reads, fits, enough⟩ other same
    rw [one, List.cons.injEq] at same
    rw [← same.1, phones reads fits]
    exact ⟨(decode_succeeds_iff decoder message).mpr ⟨reads, fits⟩, enough⟩

theorem receiver_safe_iff_fields (decoder : AddressBookDecoder) (created : Bool)
    (message : List Byte) :
    ReceiverSafe decoder created message ↔
      created = false ∨ ¬MakesPeople decoder message ∨
        (peopleContents decoder message).length ≠ 1 ∨
        decoder.Reads message ∧ decoder.Fits message ∧
          ∀ content ∈ peopleContents decoder message,
            2 ≤ (phoneContents decoder content).length := by
  rw [receiver_safe_iff_decoded]
  apply or_congr_right
  by_cases makes : MakesPeople decoder message
  · rw [or_iff_right (not_not.mpr makes)]
    by_cases one : (peopleContents decoder message).length = 1
    · rw [or_iff_right (not_not.mpr one)]
      obtain ⟨content, single⟩ := List.length_eq_one_iff.mp one
      rw [single_person_safe_iff single makes, single]
      simp only [List.mem_singleton, forall_eq]
    · refine iff_of_true (fun person same => absurd ?_ one) (Or.inl one)
      rw [← decode_people_length makes, same]
      rfl
  · refine iff_of_true (fun person same => ?_) (Or.inl makes)
    rw [decode_without_people (Or.inr makes)] at same
    cases same

section Samples

open UdpReceiveModel LengthFraming
open AddressBookFilter (personWithTypes twoWorkNumbers two_work_numbers_encoded)

/-- One person with a single phone number. -/
def oneHomeNumber : List Byte := [10, 4, 34, 2, 16, 1]

end Samples

end ProtobufLkm.AddressBookReceiver
