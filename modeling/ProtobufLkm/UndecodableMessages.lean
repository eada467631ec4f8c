import ProtobufLkm.AddressBookItemBounds
import ProtobufLkm.HelloWorldTcpModel

/-!
# Messages the decoder reports an error for

Both netfilter examples ignore the result of the decode call and decide on what
it left in the message: the defaults, and whatever was stored before the error.
What that is depends on the fields in front of the error, and on the value the
failing read itself returns, which is stored as well.
-/

namespace ProtobufLkm.UndecodableMessages

open ByteCodec Proto3Wire ResourceAttempt NetfilterHookModel HelloWorldMessage
open AddressBookMessage AddressBookDecoding AddressBookFilter AddressBookItemBounds

set_option autoImplicit false

section HelloWorld

/-- What the iterations over a message store: the fields in front of the first one
that cannot be read, and the failing read. -/
def storedValues (read : List Byte → Option (WireField × List Byte))
    (failing : List Byte → Option (Nat × Int)) (message : List Byte) : List (Nat × Int) :=
  let (fields, rest) := frontFields read message
  (fields.map fun field => (field.number, field.int32)) ++
    if rest = [] then [] else (failing rest).toList

/-- pbtools reads the fields in their order, and an error ends the loop. -/
structure StopsAtErrors (decoder : PbtoolsDecoder)
    (read : List Byte → Option (WireField × List Byte))
    (failing : List Byte → Option (Nat × Int)) : Prop where
  iterations : ∀ message, decoder.iterations message = storedValues read failing message
  result : ∀ message, 0 ≤ decoder.result message ↔ (frontFields read message).2 = []

/-- The last value stored for `bar` is one the rule drops. -/
def StoredBarDrops (iterations : List (Nat × Int)) : Prop :=
  ∃ earlier value later, iterations = earlier ++ (1, value) :: later ∧
    (∀ iteration ∈ later, iteration.1 ≠ 1) ∧ 20 ≤ value

def HelloWorldFailsClosed (decoder : PbtoolsDecoder) (message : List Byte) : Prop :=
  decoder.result message < 0 → HelloWorldTcpModel.processMessage decoder message = .drop

theorem foo_decode_inner_append (first second : List (Nat × Int)) (self : Foo) :
    helloWorldFooDecodeInner (first ++ second) self =
      helloWorldFooDecodeInner second (helloWorldFooDecodeInner first self) := by
  rw [helloWorldFooDecodeInner, List.foldl_append]
  rfl

theorem foo_decode_inner_bar (value : Int) (later : List (Nat × Int)) (self : Foo) :
    helloWorldFooDecodeInner ((1, value) :: later) self =
      helloWorldFooDecodeInner later { self with bar := value } := rfl

theorem foo_decode_inner_other {iterations : List (Nat × Int)}
    (others : ∀ iteration ∈ iterations, iteration.1 ≠ 1) (self : Foo) :
    helloWorldFooDecodeInner iterations self = self := by
  induction iterations with
  | nil => rfl
  | cons iteration rest ih =>
      have tail := ih fun other member => others other (List.mem_cons_of_mem _ member)
      have tag := others iteration List.mem_cons_self
      rcases iteration with ⟨_ | _ | number, value⟩
      · exact tail
      · exact absurd rfl tag
      · exact tail

/-- Either no iteration stores `bar`, or a last one does. -/
theorem last_bar (iterations : List (Nat × Int)) :
    (∀ iteration ∈ iterations, iteration.1 ≠ 1) ∨
      ∃ earlier value later, iterations = earlier ++ (1, value) :: later ∧
        ∀ iteration ∈ later, iteration.1 ≠ 1 := by
  induction iterations with
  | nil => exact Or.inl (by simp)
  | cons iteration rest ih =>
      rcases ih with others | ⟨earlier, value, later, rfl, others⟩
      · by_cases tag : iteration.1 = 1
        · exact Or.inr ⟨[], iteration.2, rest, by rw [← tag]; rfl, others⟩
        · exact Or.inl (List.forall_mem_cons.mpr ⟨tag, others⟩)
      · exact Or.inr ⟨iteration :: earlier, value, later, rfl, others⟩

theorem stored_bar_drops_iff (iterations : List (Nat × Int)) :
    StoredBarDrops iterations ↔
      20 ≤ (helloWorldFooDecodeInner iterations helloWorldFooInit).bar := by
  have stored : ∀ earlier value later, (∀ iteration ∈ later, iteration.1 ≠ 1) →
      (helloWorldFooDecodeInner (earlier ++ (1, value) :: later) helloWorldFooInit).bar =
        value := by
    intro earlier value later others
    rw [foo_decode_inner_append, foo_decode_inner_bar, foo_decode_inner_other others]
  constructor
  · rintro ⟨earlier, value, later, rfl, others, large⟩
    rw [stored earlier value later others]
    exact large
  · intro large
    rcases last_bar iterations with others | ⟨earlier, value, later, rfl, others⟩
    · rw [foo_decode_inner_other others] at large
      exact absurd large (by decide)
    · rw [stored earlier value later others] at large
      exact ⟨earlier, value, later, rfl, others, large⟩

theorem hello_world_drops_iff (decoder : PbtoolsDecoder) (message : List Byte) :
    HelloWorldTcpModel.processMessage decoder message = .drop ↔
      StoredBarDrops (decoder.iterations message) := by
  rw [stored_bar_drops_iff, HelloWorldTcpModel.processMessage, decodedBar, helloWorldFooDecode]
  split_ifs with large
  · exact iff_of_true rfl large
  · exact iff_of_false (by simp) large

theorem hello_world_fails_closed_iff {decoder : PbtoolsDecoder}
    {read : List Byte → Option (WireField × List Byte)} {failing : List Byte → Option (Nat × Int)}
    (stops : StopsAtErrors decoder read failing) (message : List Byte) :
    HelloWorldFailsClosed decoder message ↔
      (frontFields read message).2 = [] ∨ StoredBarDrops (storedValues read failing message) := by
  rw [HelloWorldFailsClosed, hello_world_drops_iff, ← stops.iterations, ← stops.result, ← not_lt]
  exact Decidable.imp_iff_not_or

end HelloWorld

section AddressBook

/-- Whatever lies behind an empty people field. -/
def AddressBookFailsClosed (decoder : AddressBookDecoder) (message : List Byte) : Prop :=
  ∀ stray, (decoder.decode message).1 < 0 → filterRule decoder stray message = .drop

/-- Without a person the rule counts the numbers of what lies there instead. -/
def acceptedStray : Stray where
  person _ := { addressBookPersonInit with
    phones := List.replicate 2 { addressBookPhoneNumberInit with type := addressBookWorkE } }
  phone _ := addressBookPhoneNumberInit

theorem filter_rule_of_no_person {decoder : AddressBookDecoder} {message : List Byte}
    (none : (decoder.decode message).2.people = []) :
    filterRule decoder acceptedStray message = .accept := by
  simp only [filterRule, processMessage, none]
  decide

theorem fails_closed_iff_decoded (decoder : AddressBookDecoder) (message : List Byte) :
    AddressBookFailsClosed decoder message ↔
      0 ≤ (decoder.decode message).1 ∨
        ((decoder.decode message).2.people ≠ [] ∧
          firstPersonWorkNumbers (decoder.decode message).2 < 2) := by
  by_cases failed : (decoder.decode message).1 < 0
  · rw [or_iff_right (not_le.mpr failed)]
    by_cases none : (decoder.decode message).2.people = []
    · refine iff_of_false ?_ (fun stored => stored.1 none)
      intro closed
      have dropped := closed acceptedStray failed
      rw [filter_rule_of_no_person none] at dropped
      cases dropped
    · have verdict : ∀ stray, filterRule decoder stray message =
          if firstPersonWorkNumbers (decoder.decode message).2 < 2 then .drop else .accept :=
        fun stray => filter_rule_of_read stray rfl none
      by_cases few : firstPersonWorkNumbers (decoder.decode message).2 < 2
      · refine iff_of_true (fun stray _ => ?_) ⟨none, few⟩
        rw [verdict stray, if_pos few]
      · refine iff_of_false ?_ (fun stored => few stored.2)
        intro closed
        have dropped := closed acceptedStray failed
        rw [verdict acceptedStray, if_neg few] at dropped
        cases dropped
  · exact iff_of_true (fun _ negative => absurd negative failed) (Or.inl (not_lt.mp failed))

/-- The type of a phone number: the last one read for it, the first of the
enumeration when there is none. -/
def lastType (fields : List WireField) : Int :=
  ((fields.filter fun field => field.number = 2).getLast?.map WireField.int32).getD 0

/-- The `WORK` numbers among phone numbers in front of an error. The one with the
error in it has the type it was given before. -/
def workInFront (decoder : AddressBookDecoder) (refuses : Nat → Bool) :
    Progress → List (List Byte) → Nat
  | _, [] => 0
  | progress, content :: later =>
      let (next, fields) := (decodeIterations decoder .phoneNumber content).run refuses progress
      (if lastType fields = addressBookWorkE then 1 else 0) +
        workInFront decoder refuses next later

/-- A person whose own fields have an error, or whose phone numbers get no memory,
has no `WORK` numbers. -/
def storedWorkNumbers (decoder : AddressBookDecoder) (refuses : Nat → Bool) (progress : Progress)
    (content : List Byte) : Nat :=
  let (next, fields) := (decodeIterations decoder .person content).run refuses progress
  if next.failed ∨ refuses next.requests then 0
  else
    workInFront decoder refuses { next with requests := next.requests + 1 } (repeatedInfo 4 fields)

/-- There is a first person in front of the error, with fewer than two `WORK`
numbers there. -/
def StoredPersonDrops (decoder : AddressBookDecoder) (message : List Byte) : Prop :=
  MakesPeople decoder message ∧ ∃ first later, peopleContents decoder message = first :: later ∧
    storedWorkNumbers decoder (decoder.refuses message)
      { requests := 1, failed := (bookFields decoder message).2 } first < 2

theorem decoded_type (fields : List WireField) (self : PhoneNumber) :
    (addressBookPhoneNumberDecodeInner fields self).type =
      ((fields.filter fun field => field.number = 2).getLast?.map WireField.int32).getD
        self.type := by
  induction fields generalizing self with
  | nil => rfl
  | cons field fields ih =>
      have step : addressBookPhoneNumberDecodeInner (field :: fields) self =
          addressBookPhoneNumberDecodeInner fields
            (addressBookPhoneNumberDecodeInner [field] self) := rfl
      rw [step, ih]
      obtain ⟨number, value⟩ := field
      by_cases own : number = 2
      · subst own
        simp [addressBookPhoneNumberDecodeInner, List.getLast?_cons]
      · have kept : (addressBookPhoneNumberDecodeInner [⟨number, value⟩] self).type =
            self.type := by
          simp only [addressBookPhoneNumberDecodeInner, List.foldl_cons, List.foldl_nil]
          split
          · rfl
          · contradiction
          · rfl
        simp [kept, own]

theorem count_phones_in_front (decoder : AddressBookDecoder) (refuses : Nat → Bool)
    (progress : Progress) (contents : List (List Byte)) :
    ((Attempt.each (decodePhoneNumber decoder) contents).run refuses progress).2.countP isWork =
      workInFront decoder refuses progress contents := by
  induction contents generalizing progress with
  | nil =>
      rw [Attempt.each, pure_run]
      rfl
  | cons content contents ih =>
      rw [Attempt.each, bind_run, map_run, decodePhoneNumber, map_run, workInFront]
      simp only [← ih, List.countP_cons, isWork, decoded_type, decide_eq_true_eq]
      exact Nat.add_comm _ _

theorem decode_phone_number_failed (decoder : AddressBookDecoder) (refuses : Nat → Bool)
    {progress : Progress} (failed : progress.failed = true) (content : List Byte) :
    (decodePhoneNumber decoder content).run refuses progress =
      (progress, addressBookPhoneNumberInit) := by
  have idle : (decodeIterations decoder .phoneNumber content).run refuses progress =
      (progress, []) := by
    cases content with
    | nil => exact pure_run [] refuses progress
    | cons byte others =>
        rw [decodeIterations, List.length_cons, decodeLoop, unless_failed_run, if_pos failed]
        simp
  rw [decodePhoneNumber, map_run, idle]
  rfl

/-- The numbers a person has after the decode call. -/
theorem stored_work_numbers_eq (decoder : AddressBookDecoder) (refuses : Nat → Bool)
    (progress : Progress) (content : List Byte) :
    ((decodePerson decoder content).run refuses progress).2.phones.countP isWork =
      storedWorkNumbers decoder refuses progress content := by
  rw [decodePerson, bind_run, map_run, storedWorkNumbers]
  generalize (decodeIterations decoder .person content).run refuses progress = pair
  obtain ⟨⟨requests, failed⟩, fields⟩ := pair
  by_cases absent : repeatedInfo 4 fields = []
  · simp [decodeRepeatedInner, absent, workInFront]
  · simp only [decodeRepeatedInner, if_neg absent, bind_run, has_failed_run]
    cases failed with
    | true =>
        have plain : isWork addressBookPhoneNumberInit = false := by decide
        rw [if_pos (Or.inl rfl)]
        split_ifs
        · rw [pure_run]
          rfl
        · rw [bind_run]
          cases (Attempt.request.run refuses _).2 with
          | false =>
              rw [if_neg Bool.false_ne_true, pure_run]
              rfl
          | true =>
              have still := Attempt.request.stays_failed refuses ⟨requests, true⟩ rfl
              rw [if_pos rfl, each_failed (decode_phone_number_failed decoder refuses still)]
              simp [plain]
    | false =>
        simp only [Bool.false_and, Bool.false_eq_true, if_false, false_or, bind_run]
        cases refused : refuses requests with
        | true => simp [Attempt.request, refused]
        | false =>
            rw [if_neg Bool.false_ne_true, ← count_phones_in_front]
            simp [Attempt.request, refused]

theorem stored_person_drops_iff (decoder : AddressBookDecoder) (message : List Byte) :
    StoredPersonDrops decoder message ↔
      (decoder.decode message).2.people ≠ [] ∧
        firstPersonWorkNumbers (decoder.decode message).2 < 2 := by
  rw [people_decoded_iff, and_comm (a := peopleContents decoder message ≠ []), and_assoc,
    StoredPersonDrops]
  apply and_congr_right
  intro makes
  cases split : peopleContents decoder message with
  | nil => simp
  | cons first later =>
      have present : peopleContents decoder message ≠ [] := split ▸ List.cons_ne_nil _ _
      have people := decode_with_people present makes
      rw [split, Attempt.each, bind_run, map_run] at people
      simp only [firstPersonWorkNumbers, people, stored_work_numbers_eq]
      simp

theorem address_book_fails_closed_iff (decoder : AddressBookDecoder) (message : List Byte) :
    AddressBookFailsClosed decoder message ↔
      decoder.Reads message ∧ decoder.Fits message ∨ StoredPersonDrops decoder message := by
  rw [fails_closed_iff_decoded, decode_succeeds_iff, stored_person_drops_iff]

end AddressBook

section Samples

theorem wire_decoder_stops :
    StopsAtErrors wireDecoder (readDeclared fooFields) fun _ => none where
  iterations message := by
    simp [wireDecoder, storedValues]
  result message := by
    simp only [wireDecoder]
    split_ifs with complete
    · exact iff_of_true (Int.natCast_nonneg _) complete
    · exact iff_of_false (by decide) complete

/-- One `WORK` number in front of a phone number without its value. -/
def oneWorkNumberTruncated : List Byte := [10, 7, 34, 2, 16, 2, 34, 1, 16]

/-- Two `WORK` numbers in front of a phone number without its value. -/
def twoWorkNumbersTruncated : List Byte := [10, 11, 34, 2, 16, 2, 34, 2, 16, 2, 34, 1, 16]

end Samples

end ProtobufLkm.UndecodableMessages
