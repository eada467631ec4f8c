import ProtobufLkm.ByteMemory

/-!
The length field in front of every message. The netfilter and the UDP modules
contain the same `extract_message_size`, over their own `BUFFER_SIZE`; it is
modelled once here and instantiated under the source's name by each of them.
-/

namespace ProtobufLkm.MessageSizeModel

open ByteCodec ByteMemory

set_option autoImplicit false

/-- `extract_message_size`: the declared size when it is below `bufferSize` as a
signed number, and `-1` otherwise. -/
def extractMessageSize (bufferSize : Nat) (memory : Memory) (buffer : Nat) : Int :=
  let size := toInt32 (swap32 (decodeLE (load memory buffer 4)))
  if size < bufferSize then size else -1

/-- The number the four bytes at `buffer` declare in network order. -/
def declaredSize (memory : Memory) (buffer : Nat) : Nat := decodeBE (load memory buffer 4)

theorem declared_size_lt (memory : Memory) (buffer : Nat) :
    declaredSize memory buffer < 2 ^ 32 := by
  simpa [declaredSize] using decode_be_lt (load memory buffer 4)

theorem declared_size_congr {left right : Memory} {buffer : Nat}
    (same : ∀ offset, buffer ≤ offset → offset < buffer + 4 → left offset = right offset) :
    declaredSize left buffer = declaredSize right buffer := by
  rw [declaredSize, declaredSize, load_congr same]

theorem extract_message_size_accepts {bufferSize : Nat} (limit : bufferSize < 2 ^ 31)
    {memory : Memory} {buffer : Nat} (fits : declaredSize memory buffer < bufferSize) :
    extractMessageSize bufferSize memory buffer = declaredSize memory buffer := by
  have value : swap32 (decodeLE (load memory buffer 4)) = declaredSize memory buffer :=
    swap32_decode_le _ (load_length _ _ _)
  simp only [extractMessageSize, value]
  rw [to_int32_of_lt (by omega), if_pos (by omega)]

/-- Values with the top bit set are negative as `int`: they pass the comparison
and still never reach the caller's `size > 0` branch. -/
theorem extract_message_size_refuses {bufferSize : Nat}
    {memory : Memory} {buffer : Nat}
    (refused : declaredSize memory buffer = 0 ∨ bufferSize ≤ declaredSize memory buffer) :
    extractMessageSize bufferSize memory buffer ≤ 0 := by
  have value : swap32 (decodeLE (load memory buffer 4)) = declaredSize memory buffer :=
    swap32_decode_le _ (load_length _ _ _)
  have bounded := declared_size_lt memory buffer
  simp only [extractMessageSize, value, toInt32]
  split_ifs <;> omega

end ProtobufLkm.MessageSizeModel
