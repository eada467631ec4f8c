import ProtobufLkm.AddressBookEncoding
import ProtobufLkm.AddressBookReceiver

/-!
# The address-book UDP demo

The receiver warns about everything in which a book differs from the one its
client sends, as far as a C program sees it: texts end at their first NUL. Of all
books whose frames the buffer holds and whose encodings fit the decoder's
workspace it accepts no others.
-/

namespace ProtobufLkm.AddressBookUdpDemo

open ByteCodec ByteMemory MessageSizeModel LengthFraming UdpReceiveModel
open AddressBookMessage AddressBookDecoding AddressBookEncoding AddressBookReceiver
open AddressBookFilter (Stray noStray)
open UdpDatagramSemantics (FrameRespecting received_calls_iff frameCalls frame_calls_of_none
  completeFrame complete_frame_frame)

set_option autoImplicit false

/-- The person the Go client puts into its book. -/
def clientPerson : Person where
  name := cLiteral "Kalle Kula"
  id := 56
  email := cLiteral "kalle.kula@foobar.com"
  phones := [⟨cLiteral "+46701232345", addressBookHomeE⟩,
    ⟨cLiteral "+46999999999", addressBookWorkE⟩]

def clientBook : AddressBook := { people := [clientPerson] }

/-- What string functions see of a text. -/
def cString (text : List Byte) : List Byte := text.takeWhile (· ≠ 0)

def phoneView (phone : PhoneNumber) : PhoneNumber := { phone with number := cString phone.number }

def personView (person : Person) : Person :=
  { person with
    name := cString person.name
    email := cString person.email
    phones := person.phones.map phoneView }

def bookView (book : AddressBook) : AddressBook := { people := book.people.map personView }

def clientDatagram (book : AddressBook) : List Byte := frame (marshalAddressBook book)

/-- What the receiver does with the messages a run of the init function hands over. -/
def receiverEvents (decoder : AddressBookDecoder) (stray : Stray) (run : InitRun) :
    List ReceiverEvent :=
  run.calls.flatMap fun call => processMessage decoder true stray call.1

def Quiet (events : List ReceiverEvent) : Prop := ∀ check, .warn check ∉ events

/-- A person was looked at and no warning was given. -/
def Accepted (events : List ReceiverEvent) : Prop :=
  (∃ field, .read field ∈ events) ∧ Quiet events

section Warnings

theorem quiet_append (first second : List ReceiverEvent) :
    Quiet (first ++ second) ↔ Quiet first ∧ Quiet second := by
  simp only [Quiet, List.mem_append, not_or, forall_and]

theorem quiet_warn_on (condition : Bool) (check : Check) :
    Quiet (warnOn condition check) ↔ condition = false := by
  cases condition with
  | false => exact iff_of_true (fun other absent => by cases absent) rfl
  | true => exact iff_of_false (fun quiet => quiet check List.mem_cons_self) Bool.true_eq_false.mp

theorem quiet_cons {event : ReceiverEvent} (silent : ∀ check, event ≠ .warn check)
    (events : List ReceiverEvent) : Quiet (event :: events) ↔ Quiet events := by
  simp only [Quiet, List.mem_cons, not_or]
  exact ⟨fun quiet check => (quiet check).2, fun quiet check => ⟨(silent check).symm, quiet check⟩⟩

theorem quiet_check_field (field : PersonField) (condition : Bool) :
    Quiet (checkField field condition) ↔ condition = false := by
  rw [checkField, quiet_cons (fun check same => by cases same), quiet_warn_on]

theorem quiet_check_phone (person : Person) (stray : Nat → PhoneNumber) (index : Nat)
    (number : String) (type : Int) :
    Quiet (checkPhone person stray index number type) ↔
      differs (person.phones.getD index (stray index)).number number = false ∧
        (person.phones.getD index (stray index)).type = type := by
  rw [checkPhone, quiet_cons (fun check same => by cases same), quiet_append, quiet_warn_on,
    quiet_warn_on]
  simp

theorem differs_eq_false_iff (text : List Byte) (literal : String) :
    differs text literal = false ↔ cString text = cLiteral literal :=
  decide_eq_false_iff_not.trans not_not

end Warnings

section Person

theorem check_phone_quiet_iff {person : Person} {stray : Nat → PhoneNumber} {index : Nat}
    {phone : PhoneNumber} (found : person.phones[index]? = some phone) (number : String)
    (type : Int) :
    Quiet (checkPhone person stray index number type) ↔
      phoneView phone = ⟨cLiteral number, type⟩ := by
  have item : person.phones.getD index (stray index) = phone := by
    rw [List.getD_eq_getElem?_getD, found, Option.getD_some]
  rw [quiet_check_phone, item, differs_eq_false_iff, phoneView, PhoneNumber.mk.injEq]

/-- The receiver is silent about what looks like the client's person, and about
no other. -/
theorem quiet_check_person_iff (person : Person) (stray : Nat → PhoneNumber) :
    Quiet (checkPerson person stray) ↔ personView person = clientPerson := by
  have read : Quiet [.read .id] := fun check member => by
    cases List.mem_singleton.mp member
  simp only [checkPerson, quiet_append, quiet_check_field, read, differs_eq_false_iff]
  rw [personView, clientPerson, Person.mk.injEq]
  constructor
  · rintro ⟨⟨⟨⟨⟨⟨name, id⟩, _⟩, email⟩, phones⟩, first⟩, second⟩
    have count := not_not.mp (of_decide_eq_false phones)
    obtain ⟨home, work, both⟩ := List.length_eq_two.mp count
    have homePhone := (check_phone_quiet_iff (by rw [both]; rfl) _ _).mp first
    have workPhone := (check_phone_quiet_iff (by rw [both]; rfl) _ _).mp second
    refine ⟨name, not_not.mp (of_decide_eq_false id), email, ?_⟩
    rw [both, List.map_cons, List.map_cons, homePhone, workPhone]
    rfl
  · rintro ⟨name, id, email, phones⟩
    have count := congrArg List.length phones
    rw [List.length_map] at count
    obtain ⟨home, work, both⟩ := List.length_eq_two.mp count
    rw [both, List.map_cons, List.map_cons, List.cons.injEq, List.cons.injEq] at phones
    have first : Quiet (checkPhone person stray 0 "+46701232345" addressBookHomeE) :=
      (check_phone_quiet_iff (by rw [both]; rfl) _ _).mpr phones.1
    have second : Quiet (checkPhone person stray 1 "+46999999999" addressBookWorkE) :=
      (check_phone_quiet_iff (by rw [both]; rfl) _ _).mpr phones.2.1
    exact ⟨⟨⟨⟨⟨⟨name, decide_eq_false (not_not.mpr id)⟩, trivial⟩, email⟩,
      decide_eq_false (not_not.mpr count)⟩, first⟩, second⟩

/-- Exactly what looks like the client's book is accepted. -/
theorem process_message_accepted_iff {decoder : AddressBookDecoder} (stray : Stray)
    {message : List Byte} {book : AddressBook} (decoded : (decoder.decode message).2 = book) :
    Accepted (processMessage decoder true stray message) ↔ bookView book = clientBook := by
  by_cases several : book.people.length ≠ 1
  · rw [process_message_returns stray (decoded.symm ▸ several)]
    apply iff_of_false
    · rintro ⟨⟨field, absent⟩, _⟩
      cases absent
    · intro same
      have count := congrArg (fun book => book.people.length) same
      rw [bookView, List.length_map] at count
      exact several count
  · obtain ⟨person, single⟩ := List.length_eq_one_iff.mp (not_not.mp several)
    rw [process_message_person stray (decoded.symm ▸ single), Accepted,
      quiet_cons (fun check same => by cases same), quiet_check_person_iff, and_iff_right]
    · rw [bookView, single, clientBook, AddressBook.mk.injEq, List.map_singleton, List.cons.injEq]
      exact (and_iff_left rfl).symm
    · exact ⟨.nameP, List.mem_cons_of_mem _ (read_mem_check_person person stray.phone)⟩

end Person

section Datagram

variable (stack : Memory)

/-- A frame that the buffer holds is handed over as it was sent. -/
theorem client_datagram_calls {created bound : Int} (socketCreated : 0 ≤ created)
    (socketBound : 0 ≤ bound) {book : AddressBook}
    (small : 4 + (marshalAddressBook book).length ≤ bufferSize) :
    (addressBookUdpInit created bound stack (.datagram (clientDatagram book))).calls =
      if marshalAddressBook book = [] then []
      else [(marshalAddressBook book, ((marshalAddressBook book).length : Int))] := by
  have limit : bufferSize < 2 ^ 32 := by decide
  have size : decodeBE ((clientDatagram book).take 4) = (marshalAddressBook book).length :=
    frame_size (by omega)
  have respecting : FrameRespecting (clientDatagram book) := by
    rw [FrameRespecting, size, clientDatagram, frame_length]
    exact Or.inr (Or.inr (Or.inr ⟨small, le_rfl⟩))
  rw [InitRun.calls, addressBookUdpInit,
    socket_init_observed socketCreated socketBound _ true rfl rfl rfl,
    (received_calls_iff stack _).mpr respecting, frameCalls]
  split_ifs with empty
  · have none : completeFrame bufferSize (clientDatagram book) = none := by
      apply if_neg
      rw [size, empty]
      exact fun complete => Nat.not_succ_le_zero 0 complete.2.1
    rw [none]
    rfl
  · have whole := complete_frame_frame empty small limit []
    rw [List.append_nil] at whole
    rw [clientDatagram, whole]
    rfl

end Datagram

end ProtobufLkm.AddressBookUdpDemo
