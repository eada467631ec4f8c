import ProtobufLkm.TcpSegmentModel
import ProtobufLkm.LengthFraming

/-!
# The sender's frame and the hook's inspection

The clients send `BE32(|data|) ++ data` in one pushed segment. The inspection of
such a payload stays inside the segment for every size the hook goes on with, so
the rule receives the message itself; the remaining sizes never reach the rule.
-/

namespace ProtobufLkm.NetfilterFrameRoundTrip

open ByteCodec ByteMemory SkBuffModel NetfilterHookModel TcpSegmentModel LengthFraming

set_option autoImplicit false

theorem inspect_frame {data : List Byte} (positive : 1 ≤ data.length)
    (small : data.length < bufferSize) (trailing : List Byte) :
    inspect (frame data ++ trailing) = some data := by
  have fits : data.length < 2 ^ 32 := small.trans (by decide)
  simp only [inspect, frame_append_size fits, frame_append_drop]
  rw [if_pos ⟨positive, small⟩, List.take_left]

theorem frame_stays_inside {data : List Byte} (small : data.length < bufferSize)
    (trailing : List Byte) : StaysInside (frame data ++ trailing) := by
  have fits : data.length < 2 ^ 32 := small.trans (by decide)
  have length : (frame data ++ trailing).length = 4 + data.length + trailing.length := by
    rw [List.length_append, frame_length]
  refine Or.inr ⟨by omega, Or.inr (Or.inr ?_)⟩
  rw [frame_append_size fits]
  omega

theorem inspect_refused {payload : List Byte}
    (refused : decodeBE (payload.take 4) = 0 ∨ bufferSize ≤ decodeBE (payload.take 4)) :
    inspect payload = none := by
  simp only [inspect]
  exact if_neg (by omega)

theorem refused_stays_inside {payload : List Byte} (header : 4 ≤ payload.length)
    (refused : decodeBE (payload.take 4) = 0 ∨ bufferSize ≤ decodeBE (payload.take 4)) :
    StaysInside payload :=
  Or.inr ⟨header, by omega⟩

section Framed

variable {api : SkbApi} {segment : TcpSegment} {message : List Byte}

theorem framed_fits (payload : segment.payload = frame message) : message.length < 2 ^ 16 := by
  have total := segment.toLocalInSkb.tot_len_lt
  have length := congrArg List.length payload
  rw [frame_length, TcpSegment.payload, List.length_drop] at length
  omega

/-- The rule decides on a framed message the hook has a buffer for. -/
theorem framed_message_judged (faithful : api.Faithful) (rule : List Byte → Verdict)
    (pushed : segment.psh = true) (inspects : buffered api segment = true)
    (payload : segment.payload = frame message) (nonempty : message ≠ [])
    (small : message.length ≤ 1023) :
    (hookFunc api rule (some segment.toSkBuff)).verdict = rule message := by
  have bounded : message.length < bufferSize := Nat.lt_succ_of_le small
  have inspected := inspect_frame (List.length_pos_iff.mpr nonempty) bounded []
  have inside := frame_stays_inside bounded []
  rw [List.append_nil, ← payload] at inspected inside
  rw [(hook_func_refines faithful rule segment pushed (buffered_copies inspects) inside).1,
    inspectedVerdict, inspected]

/-- A frame of no bytes or of more than the buffer holds does not reach the rule. -/
theorem unjudged_frame_run (faithful : api.Faithful) (rule : List Byte → Verdict)
    (pushed : segment.psh = true) (inspects : buffered api segment = true)
    (payload : segment.payload = frame message)
    (guarded : message = [] ∨ 1024 ≤ message.length) :
    (hookFunc api rule (some segment.toSkBuff)).calls = [] ∧
      (hookFunc api rule (some segment.toSkBuff)).verdict = .accept := by
  have fits := framed_fits payload
  have refused : decodeBE (segment.payload.take 4) = 0 ∨
      bufferSize ≤ decodeBE (segment.payload.take 4) := by
    rw [payload, frame_size (by omega)]
    exact guarded.imp List.length_eq_zero_iff.mpr id
  have header : 4 ≤ segment.payload.length := by
    rw [payload, frame_length]
    omega
  have silent := inspect_refused refused
  obtain ⟨verdict, calls⟩ := hook_func_refines faithful rule segment pushed
    (buffered_copies inspects) (refused_stays_inside header refused)
  rw [verdict, calls, inspectedVerdict, inspectedCalls, silent]
  exact ⟨rfl, rfl⟩

/-- The size guards accept it. -/
theorem unjudged_frame_accepted (faithful : api.Faithful) (rule : List Byte → Verdict)
    (pushed : segment.psh = true) (inspects : buffered api segment = true)
    (payload : segment.payload = frame message)
    (guarded : message = [] ∨ 1024 ≤ message.length) :
    (hookFunc api rule (some segment.toSkBuff)).verdict = .accept :=
  (unjudged_frame_run faithful rule pushed inspects payload guarded).2

end Framed

/-- A frame of 1 to 1023 bytes reaches the rule exactly once and byte for byte;
a size field of zero or at least 1024 is accepted without consulting the rule. -/
theorem pushed_frame_round_trip {api : SkbApi} (faithful : api.Faithful)
    (processMessage : List Byte → Verdict) (segment : TcpSegment) (pushed : segment.psh = true)
    (copies : segment.isNonlinear = true → api.skbCopy segment.toSkBuff ≠ none) :
    (∀ data trailing : List Byte, 1 ≤ data.length → data.length ≤ 1023 →
      segment.payload = frame data ++ trailing →
        (hookFunc api processMessage (some segment.toSkBuff)).calls =
            [(data, (data.length : Int))] ∧
          (hookFunc api processMessage (some segment.toSkBuff)).verdict = processMessage data) ∧
    (4 ≤ segment.payload.length →
      (decodeBE (segment.payload.take 4) = 0 ∨ 1024 ≤ decodeBE (segment.payload.take 4)) →
        (hookFunc api processMessage (some segment.toSkBuff)).calls = [] ∧
          (hookFunc api processMessage (some segment.toSkBuff)).verdict = .accept) := by
  have refines := hook_func_refines faithful processMessage segment pushed copies
  constructor
  · intro data trailing positive small payload
    have bounded : data.length < bufferSize := Nat.lt_succ_of_le small
    have message := inspect_frame positive bounded trailing
    obtain ⟨verdict, calls⟩ := refines (payload ▸ frame_stays_inside bounded trailing)
    rw [verdict, calls, inspectedVerdict, inspectedCalls, payload, message]
    exact ⟨rfl, rfl⟩
  · intro header refused
    have silent := inspect_refused refused
    obtain ⟨verdict, calls⟩ := refines (refused_stays_inside header refused)
    rw [verdict, calls, inspectedVerdict, inspectedCalls, silent]
    exact ⟨rfl, rfl⟩

/-- A fragmented segment with only its headers in the linear head, a frame of
three bytes and one byte after it. -/
theorem pushed_frame_round_trip_fragmented :
    let segment := plainSegment true (frame [8, 150, 1] ++ [7]) (by decide) 40 le_rfl
      (by rw [plain_packet_length]; omega) fun _ => 0xAA
    (hookFunc (copyingApi fun _ => 0xBB) (fun _ => .drop) (some segment.toSkBuff)).calls =
        [([8, 150, 1], 3)] ∧
      (hookFunc (copyingApi fun _ => 0xBB) (fun _ => .drop) (some segment.toSkBuff)).verdict =
        .drop :=
  (pushed_frame_round_trip (copying_api_faithful _) (fun _ => .drop)
    (plainSegment true (frame [8, 150, 1] ++ [7]) (by decide) 40 le_rfl
      (by rw [plain_packet_length]; omega) fun _ => 0xAA)
    (plain_segment_psh _ _ _ _) (fun _ => by simp [copyingApi])).1 [8, 150, 1] [7] (by decide)
    (by decide) (plain_segment_payload _ _ _ _)

end ProtobufLkm.NetfilterFrameRoundTrip
