import ProtobufLkm.UdpReceiveModel
import ProtobufLkm.LengthFraming

/-!
# What the generated UDP module makes of a datagram

The abstract receiver accepts a datagram that begins with one complete frame
which the buffer can hold, prefix included. The generated module compares the
declared size with the buffer size only, neither adding the prefix nor looking
at the number of bytes received.
-/

namespace ProtobufLkm.UdpDatagramSemantics

open ByteCodec ByteMemory MessageSizeModel UdpReceiveModel LengthFraming

set_option autoImplicit false

/-- The message of the frame at the start of a datagram, if there is one, it is
not empty and the whole frame fits `capacity`. -/
def completeFrame (capacity : Nat) (datagram : List Byte) : Option (List Byte) :=
  let size := decodeBE (datagram.take 4)
  if 4 ≤ datagram.length ∧ 1 ≤ size ∧ 4 + size ≤ datagram.length ∧ 4 + size ≤ capacity then
    some ((datagram.drop 4).take size)
  else none

/-- The calls of a receiver that hands over complete frames and nothing else. -/
def frameCalls (capacity : Nat) (datagram : List Byte) : List (List Byte × Int) :=
  (completeFrame capacity datagram).toList.map fun message => (message, (message.length : Int))

theorem complete_frame_frame {capacity : Nat} {message : List Byte} (nonempty : message ≠ [])
    (fits : 4 + message.length ≤ capacity) (limit : capacity < 2 ^ 32) (rest : List Byte) :
    completeFrame capacity (frame message ++ rest) = some message := by
  have size := frame_append_size (by omega : message.length < 2 ^ 32) rest
  have positive := List.length_pos_iff.mpr nonempty
  simp only [completeFrame, size, frame_append_drop, List.take_left]
  rw [if_pos]
  simp only [List.length_append, frame_length]
  exact ⟨by omega, by omega, by omega, fits⟩

/-- The datagrams the module treats as that receiver does: those without a
prefix, those whose declared size the buffer check refuses, and those whose
frame is complete and ends within the buffer. -/
def FrameRespecting (datagram : List Byte) : Prop :=
  let size := decodeBE (datagram.take 4)
  datagram.length < 4 ∨ size = 0 ∨ bufferSize ≤ size ∨
    (4 + size ≤ bufferSize ∧ 4 + size ≤ datagram.length)

instance (datagram : List Byte) : Decidable (FrameRespecting datagram) := by
  unfold FrameRespecting
  infer_instance

section Receive

variable (stack : Memory) {datagram : List Byte}

/-- The zeroed buffer completes a short prefix to a multiple of 256. -/
theorem short_prefix_refused (short : datagram.length < 4) :
    declaredSize (storeDatagram datagram (zeroedBuffer stack)) 0 = 0 ∨
      bufferSize ≤ declaredSize (storeDatagram datagram (zeroedBuffer stack)) 0 := by
  have last : storeDatagram datagram (zeroedBuffer stack) 3 = 0 := by
    rw [store_datagram_outside _ (by omega), zeroedBuffer,
      overlay_inside stack (by rw [List.length_replicate]; decide), List.getElem_replicate]
  have split : load (storeDatagram datagram (zeroedBuffer stack)) 0 4 =
      load (storeDatagram datagram (zeroedBuffer stack)) 0 3 ++ [0] := by
    rw [load_add _ 0 3 1]
    simp [load, last]
  simp only [declaredSize, split, decode_be_append, bufferSize]
  simp only [decodeBE, List.length_singleton]
  omega

theorem calls_short (short : datagram.length < 4) :
    (receiveOnce (zeroedBuffer stack) (.datagram datagram)).filterMap UdpEvent.call = [] := by
  rw [receive_once_refused (short_prefix_refused stack short)]
  rfl

theorem calls_refused (prefixed : 4 ≤ datagram.length)
    (refused : decodeBE (datagram.take 4) = 0 ∨ bufferSize ≤ decodeBE (datagram.take 4)) :
    (receiveOnce (zeroedBuffer stack) (.datagram datagram)).filterMap UdpEvent.call = [] := by
  rw [← declared_size_store_datagram (zeroedBuffer stack) prefixed] at refused
  rw [receive_once_refused refused]
  rfl

theorem calls_message (prefixed : 4 ≤ datagram.length)
    (positive : 1 ≤ decodeBE (datagram.take 4)) (fits : decodeBE (datagram.take 4) < bufferSize) :
    (receiveOnce (zeroedBuffer stack) (.datagram datagram)).filterMap UdpEvent.call =
      [(load (storeDatagram datagram (zeroedBuffer stack)) 4 (decodeBE (datagram.take 4)),
        (decodeBE (datagram.take 4) : Int))] := by
  have declared := declared_size_store_datagram (zeroedBuffer stack) prefixed
  rw [receive_once_message (by omega) (by omega), declared]
  rfl

end Receive

theorem frame_calls_of_none {datagram : List Byte}
    (none : completeFrame bufferSize datagram = none) :
    frameCalls bufferSize datagram = [] := by
  rw [frameCalls, none]
  rfl

theorem received_calls_iff (stack : Memory) (datagram : List Byte) :
    (receiveOnce (zeroedBuffer stack) (.datagram datagram)).filterMap UdpEvent.call =
        frameCalls bufferSize datagram ↔ FrameRespecting datagram := by
  by_cases short : datagram.length < 4
  · have incomplete : completeFrame bufferSize datagram = none := if_neg fun complete => by omega
    rw [calls_short stack short, frame_calls_of_none incomplete]
    exact iff_of_true rfl (Or.inl short)
  by_cases refused : decodeBE (datagram.take 4) = 0 ∨ bufferSize ≤ decodeBE (datagram.take 4)
  · have incomplete : completeFrame bufferSize datagram = none := if_neg fun complete => by omega
    rw [calls_refused stack (by omega) refused, frame_calls_of_none incomplete]
    exact iff_of_true rfl (Or.inr (refused.imp_right Or.inl))
  rw [calls_message stack (by omega) (by omega) (by omega)]
  by_cases complete : 4 + decodeBE (datagram.take 4) ≤ bufferSize ∧
      4 + decodeBE (datagram.take 4) ≤ datagram.length
  · obtain ⟨capacity, received⟩ := complete
    have found : completeFrame bufferSize datagram =
        some ((datagram.drop 4).take (decodeBE (datagram.take 4))) :=
      if_pos ⟨by omega, by omega, received, capacity⟩
    have length : ((datagram.drop 4).take (decodeBE (datagram.take 4))).length =
        decodeBE (datagram.take 4) := by
      rw [List.length_take, List.length_drop]
      omega
    have inside : 4 + decodeBE (datagram.take 4) ≤ receiveSize :=
      capacity.trans (by decide)
    refine iff_of_true ?_ (Or.inr (Or.inr (Or.inr ⟨capacity, received⟩)))
    simp only [frameCalls, found, Option.toList_some, List.map_cons, List.map_nil, length,
      load_store_datagram (zeroedBuffer stack) received inside]
  · have incomplete : completeFrame bufferSize datagram = none := if_neg fun whole =>
      complete ⟨whole.2.2.2, whole.2.2.1⟩
    rw [frame_calls_of_none incomplete]
    refine iff_of_false (List.cons_ne_nil _ _) ?_
    rintro (none | zero | large | whole)
    · exact short none
    · exact refused (Or.inl zero)
    · exact refused (Or.inr large)
    · exact complete whole

/-- The generated module hands over complete frames and nothing else exactly on
the frame-respecting datagrams. -/
theorem module_calls_exact_iff {created bound : Int} (socketCreated : 0 ≤ created)
    (socketBound : 0 ≤ bound) (stack : Memory) (datagram : List Byte) :
    (moduleInit created bound stack (.datagram datagram)).calls = frameCalls bufferSize datagram ↔
      FrameRespecting datagram := by
  rw [← received_calls_iff stack datagram]
  rw [InitRun.calls, moduleInit, socket_init_observed socketCreated socketBound _ true rfl rfl rfl]

theorem module_calls_exact_iff_frame :
    (moduleInit 0 0 (fun _ => 0) (.datagram (frame [8, 42]))).calls =
        frameCalls bufferSize (frame [8, 42]) ↔ FrameRespecting (frame [8, 42]) :=
  module_calls_exact_iff (by decide) (by decide) (fun _ => 0) (frame [8, 42])

/-- A prefix announcing five bytes and none of them: the message is five zero
bytes of the cleared buffer. -/
theorem truncated_datagram_processed :
    (moduleInit 0 0 (fun _ => 0) (.datagram [0, 0, 0, 5])).calls = [([0, 0, 0, 0, 0], 5)] ∧
      (moduleInit 0 0 (fun _ => 0) (.datagram [0, 0, 0, 5])).calls ≠
        frameCalls bufferSize [0, 0, 0, 5] := by
  decide +kernel

end ProtobufLkm.UdpDatagramSemantics
