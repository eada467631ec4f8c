import ProtobufLkm.HelloWorldMessage
import ProtobufLkm.LengthFraming
import ProtobufLkm.UdpReceiveModel

/-!
# Datagrams of the hello_world UDP loop that cannot show earlier ones

All iterations receive into one buffer that is cleared before the first. What an
iteration does is compared across two runs with any earlier datagrams and any
stack; it is the same exactly for the datagrams that bring along every byte the
iteration acts on.
-/

namespace ProtobufLkm.HelloWorldUdpIsolation

open ByteCodec ByteMemory MessageSizeModel LengthFraming Proto3Wire HelloWorldMessage
open UdpReceiveModel

set_option autoImplicit false

/-- `process_message` of the hello_world UDP example. -/
def processMessage (decoder : PbtoolsDecoder) (message : List Byte) : Int :=
  decodedBar decoder message

section Runs

variable (process : List Byte → Int)

/-- What an iteration hands over, computes and reports, and whether it goes on. -/
def action (buffer : Memory) (datagram : List Byte) : List UdpEvent × Bool :=
  Prod.map id Option.isSome (receiveIteration process buffer (.datagram datagram))

def Reaches (stack : Memory) (earlier : List RecvResult) (buffer : Memory) : Prop :=
  (receiveLoop process (zeroedBuffer stack) earlier).2 = some buffer

/-- Any two runs that reach the same iteration act alike on the datagram. -/
def Isolated (datagram : List Byte) : Prop :=
  ∀ (leftStack rightStack leftBuffer rightBuffer : Memory)
    (leftEarlier rightEarlier : List RecvResult),
    leftEarlier.length = rightEarlier.length →
    Reaches process leftStack leftEarlier leftBuffer →
    Reaches process rightStack rightEarlier rightBuffer →
    action process leftBuffer datagram = action process rightBuffer datagram

variable {process}

theorem action_events (buffer : Memory) (datagram : List Byte) :
    (action process buffer datagram).1 =
      (receiveIteration process buffer (.datagram datagram)).1 := by
  rw [action, Prod.map_fst, id_eq]

theorem action_leaves (buffer : Memory) (datagram : List Byte) :
    (action process buffer datagram).2 = false ↔
      (receiveIteration process buffer (.datagram datagram)).2 = none := by
  rw [action, Prod.map_snd, Option.isSome_eq_false_iff, Option.isNone_iff_eq_none]

/-- The whole run emits the action behind what its earlier datagrams emitted,
and nothing after it if the action leaves the loop. -/
theorem receive_loop_at {stack buffer : Memory} {earlier : List RecvResult}
    (reached : Reaches process stack earlier buffer) (datagram : List Byte)
    (later : List RecvResult) :
    ∃ rest, (receiveLoop process (zeroedBuffer stack) (earlier ++ .datagram datagram :: later)).1 =
        (receiveLoop process (zeroedBuffer stack) earlier).1 ++
          ((action process buffer datagram).1 ++ rest) ∧
      ((action process buffer datagram).2 = false → rest = []) := by
  obtain ⟨rest, events, stops⟩ := ExitingLoop.run_at_iteration reached (.datagram datagram) later
  refine ⟨rest, ?_, fun left => stops ((action_leaves buffer datagram).mp left)⟩
  rw [action_events]
  exact events

end Runs

/-- A short datagram already makes its prefix too large, a longer one has a
declared size that is refused or covered by what was received. -/
def SelfContained (datagram : List Byte) : Prop :=
  if datagram.length < 4 then ∃ byte ∈ datagram, byte ≠ 0
  else
    let size := decodeBE (datagram.take 4)
    size = 0 ∨ bufferSize ≤ size ∨ 4 + size ≤ datagram.length

section Sufficient

variable {process : List Byte → Int} {datagram : List Byte}

theorem action_refused {buffer : Memory}
    (refused : declaredSize (storeDatagram datagram buffer) 0 = 0 ∨
      bufferSize ≤ declaredSize (storeDatagram datagram buffer) 0) :
    action process buffer datagram =
      ([.kernelRecvmsg (datagram.take receiveSize).length, .extractMessageSize], false) := by
  rw [action, receive_iteration_refused refused]
  rfl

theorem action_message {buffer : Memory}
    (positive : 1 ≤ declaredSize (storeDatagram datagram buffer) 0)
    (fits : declaredSize (storeDatagram datagram buffer) 0 < bufferSize) {message : List Byte}
    (stored : load (storeDatagram datagram buffer) 4
      (declaredSize (storeDatagram datagram buffer) 0) = message) :
    action process buffer datagram =
      ([.kernelRecvmsg (datagram.take receiveSize).length, .extractMessageSize,
          .processMessage message (declaredSize (storeDatagram datagram buffer) 0),
          .received (process message)], decide (process message ≤ 5)) := by
  rw [action, receive_iteration_message positive fits stored]
  by_cases continues : process message ≤ 5
  · simp [continues]
  · simp [continues]

theorem declared_size_of_nonzero {memory : Memory} {offset : Nat} (high : offset < 3)
    (nonzero : memory offset ≠ 0) : bufferSize ≤ declaredSize memory 0 := by
  have bytes : load memory 0 4 = [memory 0, memory 1, memory 2, memory 3] := rfl
  have positive : 0 < (memory offset).val := Nat.pos_of_ne_zero fun zero => nonzero (Fin.ext zero)
  simp only [declaredSize, bytes, decodeBE, List.length_cons, List.length_nil, bufferSize]
  have cases : offset = 0 ∨ offset = 1 ∨ offset = 2 := by omega
  rcases cases with rfl | rfl | rfl <;> omega

/-- The action on a self-contained datagram is a function of the datagram. -/
theorem action_of_self_contained (selfContained : SelfContained datagram) (left right : Memory) :
    action process left datagram = action process right datagram := by
  by_cases short : datagram.length < 4
  · rw [SelfContained, if_pos short] at selfContained
    obtain ⟨byte, member, nonzero⟩ := selfContained
    obtain ⟨offset, inside, rfl⟩ := List.getElem_of_mem member
    have received : offset < receiveSize := by
      have small : 4 ≤ receiveSize := by decide
      omega
    have large : ∀ buffer : Memory,
        bufferSize ≤ declaredSize (storeDatagram datagram buffer) 0 := by
      intro buffer
      apply declared_size_of_nonzero (by omega : offset < 3)
      rw [store_datagram_inside buffer inside received]
      exact nonzero
    rw [action_refused (Or.inr (large left)), action_refused (Or.inr (large right))]
  · rw [SelfContained, if_neg short] at selfContained
    have declared : ∀ buffer : Memory,
        declaredSize (storeDatagram datagram buffer) 0 = decodeBE (datagram.take 4) :=
      fun buffer => declared_size_store_datagram buffer (Nat.not_lt.mp short)
    by_cases refused : decodeBE (datagram.take 4) = 0 ∨ bufferSize ≤ decodeBE (datagram.take 4)
    · rw [action_refused (by rwa [declared left]), action_refused (by rwa [declared right])]
    · have covered : 4 + decodeBE (datagram.take 4) ≤ datagram.length := by omega
      have received : 4 + decodeBE (datagram.take 4) ≤ receiveSize := by
        have small : bufferSize + 4 ≤ receiveSize := by decide
        omega
      have stored : ∀ buffer : Memory,
          load (storeDatagram datagram buffer) 4 (declaredSize (storeDatagram datagram buffer) 0) =
            (datagram.drop 4).take (decodeBE (datagram.take 4)) := by
        intro buffer
        rw [declared buffer, load_store_datagram buffer covered received]
      have bounds : ∀ buffer : Memory, 1 ≤ declaredSize (storeDatagram datagram buffer) 0 ∧
          declaredSize (storeDatagram datagram buffer) 0 < bufferSize := by
        intro buffer
        rw [declared buffer]
        omega
      rw [action_message (bounds left).1 (bounds left).2 (stored left),
        action_message (bounds right).1 (bounds right).2 (stored right), declared, declared]

end Sufficient

section Necessary

variable {process : List Byte → Int}

/-- One earlier datagram: a frame the loop goes on after, and anything behind it. -/
theorem reaches_after_frame (stack : Memory) {message : List Byte} (nonempty : message ≠ [])
    (fits : message.length < bufferSize) (continues : process message ≤ 5) (fill : List Byte) :
    Reaches process stack [.datagram (frame message ++ fill)]
      (storeDatagram (frame message ++ fill) (zeroedBuffer stack)) := by
  have positive := List.length_pos_iff.mpr nonempty
  have small : bufferSize + 4 ≤ receiveSize := by decide
  have limit : bufferSize < 2 ^ 32 := by decide
  have prefixed : 4 ≤ (frame message ++ fill).length := by
    simp only [List.length_append, frame_length]
    omega
  have declared : declaredSize (storeDatagram (frame message ++ fill) (zeroedBuffer stack)) 0 =
      message.length := by
    rw [declared_size_store_datagram _ prefixed, frame_append_size (by omega)]
  have stored : load (storeDatagram (frame message ++ fill) (zeroedBuffer stack)) 4
      (declaredSize (storeDatagram (frame message ++ fill) (zeroedBuffer stack)) 0) = message := by
    rw [declared, load_store_datagram _ (by simp only [List.length_append, frame_length]; omega)
      (by omega), frame_append_drop, List.take_left]
  have next : (receiveIteration process (zeroedBuffer stack)
      (.datagram (frame message ++ fill))).2 =
        some (storeDatagram (frame message ++ fill) (zeroedBuffer stack)) := by
    rw [receive_iteration_message (by omega) (by omega) stored, if_pos continues]
  rw [Reaches, receiveLoop, ExitingLoop.run_cons_next [] next]
  rfl

end Necessary

section Histories

variable {decoder : PbtoolsDecoder}

theorem continues_after_fields (conforms : decoder.Conforms) {fields : List WireField}
    (varints : ∀ field ∈ fields, field.WellFormed ∧ IsVarint field)
    (small : (helloWorldFooDecodeInner (fields.map fun field => (field.number, field.int32))
      helloWorldFooInit).bar ≤ 5) : processMessage decoder (encodeFields fields) ≤ 5 := by
  rw [processMessage, decoded_bar_of_fields conforms varints]
  exact small

def varintField (number value : Nat) : WireField := ⟨number, .varint value⟩

theorem varint_field_ok {number value : Nat} (isNumber : IsFieldNumber number)
    (fits : value < 2 ^ 64) :
    (varintField number value).WellFormed ∧ IsVarint (varintField number value) :=
  ⟨⟨isNumber, fits⟩, value, rfl⟩

/-- Two earlier datagrams that differ everywhere behind the prefix: `bar = 1` and
an unknown field, each followed by 126 bytes. -/
def markedDatagram (mark : Bool) : List Byte :=
  frame (encodeFields [if mark then varintField 1 1 else varintField 2 2]) ++
    List.replicate 126 (if mark then 1 else 2)

def repeatedDatagram (twice : Bool) : List Byte :=
  frame (encodeFields (if twice then [varintField 1 1, varintField 1 1] else [varintField 1 1]))

theorem marked_datagram_reaches (conforms : decoder.Conforms) (mark : Bool) :
    Reaches (processMessage decoder) (fun _ => 0) [.datagram (markedDatagram mark)]
      (storeDatagram (markedDatagram mark) (zeroedBuffer fun _ => 0)) := by
  refine reaches_after_frame _ ?_ ?_ ?_ _
  · cases mark <;> decide
  · cases mark <;> decide
  · apply continues_after_fields conforms _ (by cases mark <;> decide)
    intro field member
    rw [List.mem_singleton.mp member]
    cases mark <;> exact varint_field_ok (by decide) (by decide)

theorem repeated_datagram_reaches (conforms : decoder.Conforms) (twice : Bool) :
    Reaches (processMessage decoder) (fun _ => 0) [.datagram (repeatedDatagram twice)]
      (storeDatagram (repeatedDatagram twice) (zeroedBuffer fun _ => 0)) := by
  have reached : Reaches (processMessage decoder) (fun _ => 0)
      [.datagram (repeatedDatagram twice ++ [])] _ :=
    reaches_after_frame (fun _ => 0) (by cases twice <;> decide) (by cases twice <;> decide)
      (continues_after_fields conforms (by
        intro field member
        have same : field = varintField 1 1 := by
          cases twice <;> simpa using member
        rw [same]
        exact varint_field_ok (by decide) (by decide)) (by cases twice <;> decide)) []
  rw [List.append_nil, List.append_nil] at reached
  exact reached

theorem marked_datagrams_differ {offset : Nat} (behind : 4 ≤ offset) (inside : offset < 132)
    (stack : Memory) :
    storeDatagram (markedDatagram true) stack offset ≠
      storeDatagram (markedDatagram false) stack offset := by
  have different : ∀ index : Fin 132, 4 ≤ index.val →
      (markedDatagram true)[index.val]? ≠ (markedDatagram false)[index.val]? := by
    decide +kernel
  have length : ∀ mark, (markedDatagram mark).length = 132 := by
    intro mark
    cases mark <;> rfl
  have received : offset < receiveSize := inside.trans (by decide)
  rw [store_datagram_inside stack (by rw [length]; exact inside) received,
    store_datagram_inside stack (by rw [length]; exact inside) received]
  have values := different ⟨offset, inside⟩ behind
  rwa [List.getElem?_eq_getElem (by rw [length]; exact inside),
    List.getElem?_eq_getElem (by rw [length]; exact inside), ne_eq, Option.some.injEq] at values

/-- Zeros shorter than a prefix leave the rest of the earlier prefix standing. -/
theorem not_isolated_of_zeros (conforms : decoder.Conforms) {datagram : List Byte}
    (short : datagram.length < 4) (zeros : ∀ byte ∈ datagram, byte = 0) :
    ¬Isolated (processMessage decoder) datagram := by
  intro isolated
  have same := isolated _ _ _ _ [.datagram (repeatedDatagram true)]
    [.datagram (repeatedDatagram false)] rfl (repeated_datagram_reaches conforms true)
    (repeated_datagram_reaches conforms false)
  have declared : ∀ twice : Bool, declaredSize (storeDatagram datagram
      (storeDatagram (repeatedDatagram twice) (zeroedBuffer fun _ => 0))) 0 =
        if twice then 4 else 2 := by
    intro twice
    have kept : declaredSize (storeDatagram datagram
        (storeDatagram (repeatedDatagram twice) (zeroedBuffer fun _ => 0))) 0 =
          declaredSize (storeDatagram (repeatedDatagram twice) (zeroedBuffer fun _ => 0)) 0 := by
      apply declared_size_congr
      intro offset _ upper
      by_cases inside : offset < datagram.length
      · have earlier :
            storeDatagram (repeatedDatagram twice) (zeroedBuffer fun _ => 0) offset = 0 := by
          have cases : offset = 0 ∨ offset = 1 ∨ offset = 2 := by omega
          cases twice <;> rcases cases with rfl | rfl | rfl <;> rfl
        have received : offset < receiveSize := by
          have small : 4 ≤ receiveSize := by decide
          omega
        rw [store_datagram_inside _ inside received, earlier]
        exact zeros _ (List.getElem_mem inside)
      · exact store_datagram_outside _ (Nat.not_lt.mp inside)
    rw [kept, declared_size_store_datagram _ (by cases twice <;> decide)]
    cases twice <;> rfl
  have left := declared true
  have right := declared false
  simp only [if_true, Bool.false_eq_true, if_false] at left right
  have limit : 4 < bufferSize := by decide
  rw [action_message (by omega) (by omega) rfl, action_message (by omega) (by omega) rfl] at same
  simp only [Prod.mk.injEq, List.cons.injEq, UdpEvent.processMessage.injEq, left, right] at same
  exact absurd same.1.2.2.1.2 (by decide)

/-- A message that ends behind the received bytes is completed by earlier ones. -/
theorem not_isolated_of_uncovered (conforms : decoder.Conforms) {datagram : List Byte}
    (prefixed : 4 ≤ datagram.length) (positive : 1 ≤ decodeBE (datagram.take 4))
    (fits : decodeBE (datagram.take 4) < bufferSize)
    (uncovered : datagram.length < 4 + decodeBE (datagram.take 4)) :
    ¬Isolated (processMessage decoder) datagram := by
  intro isolated
  have same := isolated _ _ _ _ [.datagram (markedDatagram true)]
    [.datagram (markedDatagram false)] rfl (marked_datagram_reaches conforms true)
    (marked_datagram_reaches conforms false)
  have declared : ∀ buffer : Memory,
      declaredSize (storeDatagram datagram buffer) 0 = decodeBE (datagram.take 4) :=
    fun buffer => declared_size_store_datagram buffer prefixed
  rw [action_message (by rwa [declared]) (by rwa [declared]) rfl,
    action_message (by rwa [declared]) (by rwa [declared]) rfl] at same
  simp only [Prod.mk.injEq, List.cons.injEq, UdpEvent.processMessage.injEq, declared] at same
  have bytes := (load_eq_iff _ _ _ _).mp same.1.2.2.1.1 datagram.length prefixed uncovered
  rw [store_datagram_outside _ le_rfl, store_datagram_outside _ le_rfl] at bytes
  have inside : datagram.length < 132 := by
    have limit : bufferSize = 128 := rfl
    omega
  exact marked_datagrams_differ prefixed inside _ bytes

end Histories

/-- Earlier datagrams cannot influence what the loop does with a datagram exactly
when it is self-contained. -/
theorem isolated_iff_self_contained {decoder : PbtoolsDecoder} (conforms : decoder.Conforms)
    (datagram : List Byte) :
    Isolated (processMessage decoder) datagram ↔ SelfContained datagram := by
  constructor
  · intro isolated
    by_cases short : datagram.length < 4
    · rw [SelfContained, if_pos short]
      by_contra none
      simp only [not_exists, not_and, not_not] at none
      exact not_isolated_of_zeros conforms short none isolated
    · rw [SelfContained, if_neg short]
      by_contra dependent
      simp only [not_or, not_le] at dependent
      exact not_isolated_of_uncovered conforms (Nat.not_lt.mp short)
        (Nat.one_le_iff_ne_zero.mpr dependent.1) dependent.2.1 dependent.2.2 isolated
  · intro selfContained leftStack rightStack leftBuffer rightBuffer leftEarlier rightEarlier _ _ _
    exact action_of_self_contained selfContained leftBuffer rightBuffer

theorem isolated_iff_self_contained_frame :
    Isolated (processMessage wireDecoder) (frame [8, 3]) ↔ SelfContained (frame [8, 3]) :=
  isolated_iff_self_contained wire_decoder_conforms (frame [8, 3])

/-- A prefix without its message: the message is the one received before it. -/
theorem truncated_datagram_replays_earlier :
    (action (processMessage wireDecoder)
        (storeDatagram (frame [8, 1]) (zeroedBuffer fun _ => 0)) [0, 0, 0, 2]).1 =
      [.kernelRecvmsg 4, .extractMessageSize, .processMessage [8, 1] 2, .received 1] ∧
    (action (processMessage wireDecoder)
        (storeDatagram (frame [8, 2]) (zeroedBuffer fun _ => 0)) [0, 0, 0, 2]).1 =
      [.kernelRecvmsg 4, .extractMessageSize, .processMessage [8, 2] 2, .received 2] ∧
    ¬Isolated (processMessage wireDecoder) [0, 0, 0, 2] := by
  refine ⟨by decide +kernel, by decide +kernel, ?_⟩
  exact not_isolated_of_uncovered wire_decoder_conforms (by decide) (by decide) (by decide)
    (by decide)

end ProtobufLkm.HelloWorldUdpIsolation
