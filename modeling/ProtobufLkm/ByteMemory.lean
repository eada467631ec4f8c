import ProtobufLkm.ByteCodec
import Mathlib.Data.List.TakeDrop

/-!
Byte memory as seen through one pointer. A buffer of known bytes lies over
memory whose contents are unconstrained, so a read past the buffer is a read of
that memory and every statement has to hold for all of its contents.
-/

namespace ProtobufLkm.ByteMemory

open ByteCodec

set_option autoImplicit false

/-- The byte at each offset from the pointer. -/
abbrev Memory := Nat → Byte

def load (memory : Memory) (start count : Nat) : List Byte :=
  (List.range count).map fun index => memory (start + index)

/-- A buffer of known bytes at the start of unconstrained memory. -/
def overlay (bytes : List Byte) (memory : Memory) : Memory :=
  fun offset => if inside : offset < bytes.length then bytes[offset] else memory offset

@[simp] theorem load_length (memory : Memory) (start count : Nat) :
    (load memory start count).length = count := by
  simp [load]

theorem load_eq_iff (left right : Memory) (start count : Nat) :
    load left start count = load right start count ↔
      ∀ offset, start ≤ offset → offset < start + count → left offset = right offset := by
  simp only [load, List.map_inj_left, List.mem_range]
  constructor
  · intro same offset lower upper
    have index := same (offset - start) (by omega)
    rwa [Nat.add_sub_cancel' lower] at index
  · intro same index bounded
    exact same (start + index) (by omega) (by omega)

theorem load_congr {left right : Memory} {start count : Nat}
    (same : ∀ offset, start ≤ offset → offset < start + count → left offset = right offset) :
    load left start count = load right start count :=
  (load_eq_iff left right start count).mpr same

theorem load_add (memory : Memory) (start first second : Nat) :
    load memory start (first + second) =
      load memory start first ++ load memory (start + first) second := by
  simp only [load, List.range_add, List.map_append, List.map_map, Function.comp_def, Nat.add_assoc]

theorem overlay_inside {bytes : List Byte} (memory : Memory) {offset : Nat}
    (inside : offset < bytes.length) : overlay bytes memory offset = bytes[offset] :=
  dif_pos inside

theorem overlay_outside {bytes : List Byte} (memory : Memory) {offset : Nat}
    (outside : bytes.length ≤ offset) : overlay bytes memory offset = memory offset :=
  dif_neg (Nat.not_lt.mpr outside)

theorem overlay_append_inside {left : List Byte} (right : List Byte) (memory : Memory)
    {offset : Nat} (inside : offset < left.length) :
    overlay (left ++ right) memory offset = overlay left memory offset := by
  rw [overlay_inside memory (by simp only [List.length_append]; omega),
    overlay_inside memory inside, List.getElem_append_left inside]

theorem load_overlay_inside {bytes : List Byte} (memory : Memory) {start count : Nat}
    (inside : start + count ≤ bytes.length) :
    load (overlay bytes memory) start count = (bytes.drop start).take count := by
  apply List.ext_getElem
  · simp only [load_length, List.length_take, List.length_drop]
    omega
  · intro index bound _
    have small : index < count := by simpa using bound
    simp only [load, List.getElem_map, List.getElem_range, List.getElem_take, List.getElem_drop]
    exact overlay_inside memory (by omega)

/-- A read that starts inside and ends outside continues with the surrounding memory. -/
theorem load_overlay_straddling {bytes : List Byte} (memory : Memory) {start count : Nat}
    (starts : start ≤ bytes.length) (ends : bytes.length ≤ start + count) :
    load (overlay bytes memory) start count =
      bytes.drop start ++ load memory bytes.length (start + count - bytes.length) := by
  have split : count = (bytes.length - start) + (start + count - bytes.length) := by omega
  conv_lhs => rw [split, load_add]
  have middle : start + (bytes.length - start) = bytes.length := by omega
  rw [load_overlay_inside memory (by omega), middle,
    List.take_of_length_le (by simp only [List.length_drop]; omega)]
  apply congrArg (bytes.drop start ++ ·)
  exact load_congr fun offset lower _ => overlay_outside memory lower

theorem load_overlay_outside {bytes : List Byte} (memory : Memory) {start : Nat} (count : Nat)
    (outside : bytes.length ≤ start) :
    load (overlay bytes memory) start count = load memory start count :=
  load_congr fun _ lower _ => overlay_outside memory (outside.trans lower)

/-- A number whose bytes are zero up to the last is that last byte. -/
theorem decode_be_load_zeros {memory : Memory} {start count : Nat}
    (zeros : ∀ index, index < count → memory (start + index) = 0) :
    decodeBE (load memory start (count + 1)) = memory (start + count) := by
  induction count generalizing start with
  | zero => simp [load, decodeBE]
  | succ count ih =>
      have first : load memory start 1 = [0] := by
        simpa [load] using zeros 0 (by omega)
      have rest : decodeBE (load memory (start + 1) (count + 1)) = memory (start + 1 + count) :=
        ih fun index bound => by
          have shifted := zeros (index + 1) (by omega)
          rwa [Nat.add_right_comm, Nat.add_assoc]
      rw [Nat.add_comm (count + 1) 1, load_add, first, decode_be_append, rest]
      simp [decodeBE, Nat.add_right_comm, Nat.add_assoc]

end ProtobufLkm.ByteMemory
