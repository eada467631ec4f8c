import ProtobufLkm.AddressBookDecoding
import ProtobufLkm.NetfilterFrameRoundTrip

/-!
# The address-book filter

`process_message` of the netfilter address-book example looks at the first
person without testing whether there is one. The rule it implements counts the
`WORK` numbers of that person; messages without bytes and messages the buffer
cannot hold are accepted before the rule is consulted.
-/

namespace ProtobufLkm.AddressBookFilter

open ByteCodec SkBuffModel NetfilterHookModel TcpSegmentModel LengthFraming
open AddressBookMessage AddressBookDecoding NetfilterFrameRoundTrip

set_option autoImplicit false

/-- What lies behind the last item of a repeated field. -/
structure Stray where
  person : Nat → Person
  phone : Nat → PhoneNumber

/-- An access to `items_p[index]` of a repeated field of `length` items. -/
inductive ItemAccess where
  | people (index length : Nat)
  | phones (index length : Nat)
  deriving DecidableEq, Repr

structure FilterRun where
  accesses : List ItemAccess
  verdict : Verdict
  deriving DecidableEq, Repr

/-- `match` after `count` rounds of the loop over the phone numbers. -/
def matchCount (phone : Nat → PhoneNumber) : Nat → Nat
  | 0 => 0
  | count + 1 => matchCount phone count + if (phone count).type = addressBookWorkE then 1 else 0

/-- The workspace holds the message structure itself, so the message is never null. -/
def processMessage (decoder : AddressBookDecoder) (stray : Stray) (message : List Byte) :
    FilterRun :=
  let book := (decoder.decode message).2
  let person := book.people.getD 0 (stray.person 0)
  let phonesLen := person.phones.length
  let found := matchCount (fun index => person.phones.getD index (stray.phone index)) phonesLen
  { accesses := .people 0 book.people.length ::
      (List.range phonesLen).map fun index => .phones index phonesLen
    verdict := if found < 2 then .drop else .accept }

def filterRule (decoder : AddressBookDecoder) (stray : Stray) (message : List Byte) : Verdict :=
  (processMessage decoder stray message).verdict

def isWork (phone : PhoneNumber) : Bool := phone.type = addressBookWorkE

/-- The `WORK` numbers of the first person, none without a person. -/
def firstPersonWorkNumbers (book : AddressBook) : Nat :=
  match book.people with
  | [] => 0
  | person :: _ => person.phones.countP isWork

theorem match_count_take (phones : List PhoneNumber) (stray : Nat → PhoneNumber) {count : Nat}
    (inside : count ≤ phones.length) :
    matchCount (fun index => phones.getD index (stray index)) count =
      (phones.take count).countP isWork := by
  induction count with
  | zero => rfl
  | succ count ih =>
      have present : phones[count]? = some phones[count] := List.getElem?_eq_getElem inside
      have item : phones.getD count (stray count) = phones[count] := by
        rw [List.getD_eq_getElem?_getD, present, Option.getD_some]
      rw [matchCount, ih (Nat.le_of_succ_le inside), item, List.take_add_one, present,
        List.countP_append]
      simp [List.countP_singleton, isWork]

theorem filter_rule_of_read {decoder : AddressBookDecoder} (stray : Stray) {message : List Byte}
    {book : AddressBook} (decoded : (decoder.decode message).2 = book) (people : book.people ≠ []) :
    filterRule decoder stray message =
      if firstPersonWorkNumbers book < 2 then .drop else .accept := by
  obtain ⟨person, others, split⟩ := List.exists_cons_of_ne_nil people
  have count := match_count_take person.phones stray.phone le_rfl
  rw [List.take_length] at count
  simp only [filterRule, processMessage, decoded, split, List.getD_cons_zero, count,
    firstPersonWorkNumbers]

section Delivery

variable {api : SkbApi} {decoder : AddressBookDecoder} {segment : TcpSegment}
variable {book : AddressBook} {encoded : List Byte}

end Delivery

section Samples

def noStray : Stray where
  person _ := addressBookPersonInit
  phone _ := addressBookPhoneNumberInit

def personWithTypes (types : List Int) : AddressBook where
  people := [{ addressBookPersonInit with
    phones := types.map fun type => { addressBookPhoneNumberInit with type := type } }]

def twoWorkNumbers : List Byte := [10, 8, 34, 2, 16, 2, 34, 2, 16, 2]

theorem two_work_numbers_encoded : Encodes (personWithTypes [2, 2]) twoWorkNumbers :=
  ⟨by decide +kernel, [⟨1, .delimited [34, 2, 16, 2, 34, 2, 16, 2]⟩], by decide +kernel, by decide⟩

end Samples

end ProtobufLkm.AddressBookFilter
