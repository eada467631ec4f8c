import ProtobufLkm.ByteCodec
import Mathlib.Data.List.TakeDrop

/-!
Length-prefixed framing: a message is preceded by its size as four bytes in
network order. A receiver that reads four bytes and then as many as they
announce recovers the message from any stream that continues after it.
-/

namespace ProtobufLkm.LengthFraming

open ByteCodec

set_option autoImplicit false

def frame (message : List Byte) : List Byte := encodeBE 4 message.length ++ message

/-- Frames sent back to back. -/
def frames (messages : List (List Byte)) : List Byte := (messages.map frame).flatten

def readFrame (input : List Byte) : Option (List Byte × List Byte) :=
  let size := decodeBE (input.take 4)
  if 4 + size ≤ input.length then some ((input.drop 4).take size, (input.drop 4).drop size)
  else none

@[simp] theorem frame_length (message : List Byte) :
    (frame message).length = 4 + message.length := by
  simp [frame]

theorem frame_append_take (message rest : List Byte) :
    (frame message ++ rest).take 4 = encodeBE 4 message.length := by
  rw [frame, List.append_assoc, List.take_left' (encode_be_length 4 _)]

theorem frame_append_drop (message rest : List Byte) :
    (frame message ++ rest).drop 4 = message ++ rest := by
  rw [frame, List.append_assoc, List.drop_left' (encode_be_length 4 _)]

theorem frame_append_size {message : List Byte} (fits : message.length < 2 ^ 32)
    (rest : List Byte) : decodeBE ((frame message ++ rest).take 4) = message.length := by
  rw [frame_append_take]
  exact decode_be_encode_of_lt fits

theorem frame_size {message : List Byte} (fits : message.length < 2 ^ 32) :
    decodeBE ((frame message).take 4) = message.length := by
  have size := frame_append_size fits []
  rwa [List.append_nil] at size

theorem frame_drop (message : List Byte) : (frame message).drop 4 = message := by
  have body := frame_append_drop message []
  rwa [List.append_nil, List.append_nil] at body

theorem read_frame_frame {message : List Byte} (fits : message.length < 2 ^ 32)
    (rest : List Byte) : readFrame (frame message ++ rest) = some (message, rest) := by
  simp only [readFrame, frame_append_size fits, frame_append_drop]
  have inside : 4 + message.length ≤ (frame message ++ rest).length := by
    simp only [List.length_append, frame_length]
    omega
  rw [if_pos inside, List.take_left, List.drop_left]

def readFrames : Nat → List Byte → Option (List (List Byte) × List Byte)
  | 0, input => some ([], input)
  | count + 1, input => do
      let (message, afterMessage) ← readFrame input
      let (messages, rest) ← readFrames count afterMessage
      some (message :: messages, rest)

theorem read_frames_frames {messages : List (List Byte)}
    (fits : ∀ message ∈ messages, message.length < 2 ^ 32) (rest : List Byte) :
    readFrames messages.length (frames messages ++ rest) = some (messages, rest) := by
  induction messages with
  | nil => rfl
  | cons message messages ih =>
      have tail := ih fun other member => fits other (List.mem_cons_of_mem _ member)
      have split : frames (message :: messages) ++ rest =
          frame message ++ (frames messages ++ rest) := by
        simp [frames]
      rw [split, List.length_cons, readFrames, read_frame_frame (fits message List.mem_cons_self)]
      simp only [Option.bind_eq_bind, Option.bind_some, tail]

end ProtobufLkm.LengthFraming
