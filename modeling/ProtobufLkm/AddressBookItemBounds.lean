import ProtobufLkm.AddressBookFilter

/-!
# Item accesses of the address-book filter

After decoding, `items_p` of a repeated field points to `length` items and is
unusable when there are none. The loop over the phone numbers respects this; the
access to the first person comes before any test, so the message itself has to
provide one.
-/

namespace ProtobufLkm.AddressBookItemBounds

open ByteCodec Proto3Wire AddressBookMessage AddressBookDecoding AddressBookFilter

set_option autoImplicit false

def InRange : ItemAccess → Prop
  | .people index length => index < length
  | .phones index length => index < length

instance (access : ItemAccess) : Decidable (InRange access) := by
  cases access <;> (unfold InRange; infer_instance)

/-- Whatever lies behind the decoded items, no access reaches it. -/
def FilterInRange (decoder : AddressBookDecoder) (message : List Byte) : Prop :=
  ∀ stray, ∀ access ∈ (processMessage decoder stray message).accesses, InRange access

theorem phone_loop_in_range (count : Nat) :
    ∀ access ∈ (List.range count).map fun index => ItemAccess.phones index count,
      InRange access := by
  intro access member
  obtain ⟨index, inside, rfl⟩ := List.mem_map.mp member
  exact List.mem_range.mp inside

theorem filter_in_range_iff_people (decoder : AddressBookDecoder) (message : List Byte) :
    FilterInRange decoder message ↔ (decoder.decode message).2.people ≠ [] := by
  constructor
  · intro inside
    exact List.length_pos_iff.mp (inside noStray _ List.mem_cons_self)
  · intro people stray access member
    rcases List.mem_cons.mp member with rfl | phone
    · exact List.length_pos_iff.mpr people
    · exact phone_loop_in_range _ access phone

theorem people_decoded_iff (decoder : AddressBookDecoder) (message : List Byte) :
    (decoder.decode message).2.people ≠ [] ↔
      peopleContents decoder message ≠ [] ∧ MakesPeople decoder message := by
  constructor
  · intro people
    by_contra missing
    exact people (decode_without_people (not_and_or.mp missing |>.imp not_not.mp id))
  · rintro ⟨present, makes⟩
    rw [← List.length_pos_iff, decode_people_length makes]
    exact List.length_pos_iff.mpr present

end ProtobufLkm.AddressBookItemBounds
