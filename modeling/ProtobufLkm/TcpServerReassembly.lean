import ProtobufLkm.ChunkedStream
import ProtobufLkm.LengthFraming

/-!
# What the address-book server reads from a connection

The user-space server reads the length with `binary.Read`, which loops until it
has four bytes, and the message with a single `conn.Read` into a zeroed buffer.
Bytes that read did not return stay zero.
-/

namespace ProtobufLkm.TcpServerReassembly

open ByteCodec LengthFraming ChunkedStream

set_option autoImplicit false

/-- `buffer` in the client's `main`. -/
def clientBuffer (data : List Byte) : List Byte := frame data

/-- The connection once the client has written, before any of it has arrived. -/
def sent (data : List Byte) : Stream Byte := ⟨[], clientBuffer data⟩

def readInto (buffer chunk : List Byte) : List Byte := chunk ++ buffer.drop chunk.length

/-- From `binary.Read` up to `proto.Unmarshal(buffer, message)`, with what
`conn.Read` returned. -/
inductive Receives (connection : Stream Byte) : List Byte → List Byte → Prop where
  | message {lengthBytes chunk : List Byte} {afterLength final : Stream Byte} :
      ReadFull 4 connection lengthBytes afterLength →
      Read (decodeBE lengthBytes) afterLength chunk final →
      Receives connection chunk (readInto (List.replicate (decodeBE lengthBytes) 0) chunk)

/-- Every delivery of the data is reassembled. -/
def AlwaysReassembled (data : List Byte) : Prop :=
  ∀ chunk buffer, Receives (sent data) chunk buffer → buffer = data

section Deliveries

variable {data chunk buffer : List Byte} (fits : data.length < 2 ^ 32)

include fits

theorem length_read {lengthBytes : List Byte} {afterLength : Stream Byte}
    (read : ReadFull 4 (sent data) lengthBytes afterLength) :
    decodeBE lengthBytes = data.length ∧ afterLength.items = data := by
  obtain ⟨lengthEq, rest⟩ := read_full_take read
  have items : (sent data).items = frame data := rfl
  rw [items] at lengthEq rest
  constructor
  · rw [lengthEq, frame_size fits]
  · rw [rest, frame_drop]

theorem receives_chunk (received : Receives (sent data) chunk buffer) :
    (data ≠ [] → chunk ≠ []) ∧
      ∃ rest, data = chunk ++ rest ∧ buffer = chunk ++ List.replicate rest.length 0 := by
  obtain ⟨length, body⟩ := received
  obtain ⟨size, items⟩ := length_read fits length
  rw [size] at body ⊢
  have split := read_items body
  rw [items] at split
  constructor
  · intro nonempty
    exact read_ne_nil (List.length_pos_iff.mpr nonempty) body
  · refine ⟨_, split, ?_⟩
    rw [readInto, List.drop_replicate]
    apply congrArg fun count => chunk ++ List.replicate count 0
    have total := congrArg List.length split
    rw [List.length_append] at total
    omega

/-- A read may return any number of the message's bytes, but not none. -/
theorem receives_exists {count : Nat} (positive : 0 < count) (small : count ≤ data.length) :
    ∃ buffer, Receives (sent data) (data.take count) buffer := by
  have enough : 4 ≤ (sent data).items.length := by
    have items : (sent data).items = frame data := rfl
    rw [items, frame_length]
    omega
  obtain ⟨afterLength, length⟩ := read_full_exists (sent data) enough
  obtain ⟨size, items⟩ := length_read fits length
  obtain ⟨final, body⟩ := read_exists afterLength positive small (by rwa [items])
  rw [items, ← size] at body
  exact ⟨_, Receives.message length body⟩

theorem reassembled_delivery_iff (received : Receives (sent data) chunk buffer) :
    buffer = data ↔ ∀ byte ∈ data.drop chunk.length, byte = 0 := by
  obtain ⟨rest, rfl, rfl⟩ := (receives_chunk fits received).2
  rw [List.append_cancel_left_eq, List.drop_left, eq_comm, List.eq_replicate_iff]
  exact and_iff_right rfl

theorem always_reassembled_iff : AlwaysReassembled data ↔ ∀ byte ∈ data.drop 1, byte = 0 := by
  constructor
  · intro always
    by_cases empty : data = []
    · simp [empty]
    · have positive := List.length_pos_iff.mpr empty
      obtain ⟨buffer, received⟩ := receives_exists fits Nat.one_pos positive
      have zeros := (reassembled_delivery_iff fits received).mp (always _ _ received)
      rwa [List.length_take_of_le positive] at zeros
  · intro zeros chunk buffer received
    apply (reassembled_delivery_iff fits received).mpr
    intro byte member
    by_cases empty : data = []
    · simp [empty] at member
    · have nonempty := List.length_pos_iff.mpr ((receives_chunk fits received).1 empty)
      apply zeros byte
      exact (List.drop_suffix_drop_left data nonempty).subset member

/-- A delivery is reassembled exactly when what the single read left out is
zero, and every delivery is exactly when the data is zero behind its first byte. -/
theorem reassembled_iff :
    (∀ chunk buffer, Receives (sent data) chunk buffer →
      (buffer = data ↔ ∀ byte ∈ data.drop chunk.length, byte = 0)) ∧
    (AlwaysReassembled data ↔ ∀ byte ∈ data.drop 1, byte = 0) :=
  ⟨fun _ _ received => reassembled_delivery_iff fits received, always_reassembled_iff fits⟩

end Deliveries

/-- A message with zeros at its end, and the read of its first byte alone. -/
theorem reassembled_zero_tail :
    AlwaysReassembled [7, 0, 0] ∧ Receives (sent [7, 0, 0]) [7] [7, 0, 0] := by
  have fits : ([7, 0, 0] : List Byte).length < 2 ^ 32 := by simp
  constructor
  · exact (reassembled_iff fits).2.mpr (by simp)
  · obtain ⟨buffer, received⟩ := @receives_exists [7, 0, 0] fits 1 (by decide) (by decide)
    have whole := ((reassembled_iff fits).1 _ _ received).mpr (by simp)
    rw [whole] at received
    exact received

/-- A person with an id, of which the read returns one byte. -/
theorem short_read_loses_bytes :
    Receives (sent [10, 2, 16, 56]) [10] [10, 0, 0, 0] ∧ ¬AlwaysReassembled [10, 2, 16, 56] := by
  have fits : ([10, 2, 16, 56] : List Byte).length < 2 ^ 32 := by simp
  constructor
  · obtain ⟨buffer, received⟩ := @receives_exists [10, 2, 16, 56] fits 1 (by decide) (by decide)
    obtain ⟨rest, split, rfl⟩ := (receives_chunk fits received).2
    cases split
    exact received
  · exact (always_reassembled_iff fits).not.mpr (by simp)

end ProtobufLkm.TcpServerReassembly
