import Mathlib.Data.List.TakeDrop

/-!
Reading a stream that arrives in chunks. A read returns some of the items that
have arrived, at least one and at most as many as were asked for; reading in a
loop until the count is complete hides the chunks, a single read does not.
-/

namespace ProtobufLkm.ChunkedStream

set_option autoImplicit false

universe u

variable {Item : Type u}

/-- What has arrived and was not read yet, and what is still on its way. -/
structure Stream (Item : Type u) where
  waiting : List Item
  coming : List Item

def Stream.items (stream : Stream Item) : List Item := stream.waiting ++ stream.coming

inductive Arrives : Stream Item → Stream Item → Prop where
  | step (waiting arrived later : List Item) :
      Arrives ⟨waiting, arrived ++ later⟩ ⟨waiting ++ arrived, later⟩

/-- One read of up to `size` items, after some more have arrived. Asking for
nothing returns at once. -/
inductive Read : Nat → Stream Item → List Item → Stream Item → Prop where
  | nothing (stream : Stream Item) : Read 0 stream [] stream
  | chunk {size : Nat} {stream : Stream Item} {chunk rest later : List Item} :
      Arrives stream ⟨chunk ++ rest, later⟩ →
      chunk ≠ [] →
      chunk.length ≤ size →
      Read size stream chunk ⟨rest, later⟩

/-- Reads for what is missing until nothing is. -/
inductive ReadFull : Nat → Stream Item → List Item → Stream Item → Prop where
  | complete (stream : Stream Item) : ReadFull 0 stream [] stream
  | more {size : Nat} {stream next final : Stream Item} {chunk rest : List Item} :
      0 < size →
      Read size stream chunk next →
      ReadFull (size - chunk.length) next rest final →
      ReadFull size stream (chunk ++ rest) final

theorem arrives_items {stream next : Stream Item} (arrives : Arrives stream next) :
    stream.items = next.items := by
  cases arrives
  simp [Stream.items]

section Read

variable {size : Nat} {stream final : Stream Item} {chunk : List Item}

theorem read_items (read : Read size stream chunk final) : stream.items = chunk ++ final.items := by
  cases read with
  | nothing => rfl
  | chunk arrives _ _ =>
      rw [arrives_items arrives, Stream.items, List.append_assoc]
      rfl

theorem read_length_le (read : Read size stream chunk final) : chunk.length ≤ size := by
  cases read with
  | nothing => exact Nat.le_refl 0
  | chunk _ _ small => exact small

theorem read_ne_nil (positive : 0 < size) (read : Read size stream chunk final) : chunk ≠ [] := by
  cases read with
  | nothing => exact absurd positive (Nat.lt_irrefl 0)
  | chunk _ nonempty _ => exact nonempty

/-- Every count from one to what was asked for is a possible read. -/
theorem read_exists (stream : Stream Item) {count size : Nat} (positive : 0 < count)
    (small : count ≤ size) (enough : count ≤ stream.items.length) :
    ∃ final, Read size stream (stream.items.take count) final := by
  obtain ⟨waiting, coming⟩ := stream
  simp only [Stream.items, List.length_append] at enough ⊢
  have arrived := Arrives.step waiting (coming.take count) (coming.drop count)
  have same : (waiting ++ coming.take count).take count = (waiting ++ coming).take count := by
    rw [List.take_append, List.take_append, List.take_take, Nat.min_eq_left (Nat.sub_le _ _)]
  have split := (List.take_append_drop count (waiting ++ coming.take count)).symm
  rw [same] at split
  rw [List.take_append_drop, split] at arrived
  refine ⟨_, Read.chunk arrived ?_ ?_⟩
  · apply List.ne_nil_of_length_pos
    rw [List.length_take, List.length_append]
    omega
  · rw [List.length_take]
    omega

end Read

section ReadFull

variable {size : Nat} {stream final : Stream Item} {data : List Item}

/-- A full read returns the next `size` items, whatever chunks they came in. -/
theorem read_full_items (read : ReadFull size stream data final) :
    stream.items = data ++ final.items ∧ data.length = size := by
  induction read with
  | complete => exact ⟨rfl, rfl⟩
  | more _ first _ ih =>
      obtain ⟨items, length⟩ := ih
      have small := read_length_le first
      constructor
      · rw [read_items first, items, List.append_assoc]
      · rw [List.length_append, length]
        omega

theorem read_full_take (read : ReadFull size stream data final) :
    data = stream.items.take size ∧ final.items = stream.items.drop size := by
  obtain ⟨items, rfl⟩ := read_full_items read
  rw [items, List.take_left, List.drop_left]
  exact ⟨rfl, rfl⟩

theorem read_full_exists (stream : Stream Item) (enough : size ≤ stream.items.length) :
    ∃ final, ReadFull size stream (stream.items.take size) final := by
  rcases Nat.eq_zero_or_pos size with rfl | positive
  · exact ⟨stream, ReadFull.complete stream⟩
  · obtain ⟨final, read⟩ := read_exists stream positive (Nat.le_refl size) enough
    have length : (stream.items.take size).length = size := List.length_take_of_le enough
    have done : ReadFull (size - (stream.items.take size).length) final [] final := by
      rw [length, Nat.sub_self]
      exact ReadFull.complete final
    have whole := ReadFull.more positive read done
    rw [List.append_nil] at whole
    exact ⟨final, whole⟩

end ReadFull

end ProtobufLkm.ChunkedStream
