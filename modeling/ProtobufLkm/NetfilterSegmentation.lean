import ProtobufLkm.NetfilterFrameRoundTrip

/-!
# Filtering a byte stream segment by segment

TCP may cut the stream anywhere, while the hook decides on each segment alone
and only looks at pushed ones. A frame is protected by the rule exactly when
some accepted pushed segment begins with the whole frame; segments whose
inspection leaves the segment are left out of the converse.
-/

namespace ProtobufLkm.NetfilterSegmentation

open ByteCodec ByteMemory SkBuffModel NetfilterHookModel TcpSegmentModel LengthFraming
open NetfilterFrameRoundTrip

set_option autoImplicit false

/-- The bytes a list of consecutive segments carries. -/
def streamOf (segments : List TcpSegment) : List Byte :=
  (segments.map TcpSegment.payload).flatten

/-- A frame of the stream, at the boundary the frames before it leave. -/
structure FrameOnStream (segments : List TcpSegment) where
  sent : List (List Byte)
  message : List Byte
  rest : List Byte
  stream_eq : streamOf segments = frames sent ++ frame message ++ rest
  sent_fit : ∀ other ∈ sent, other.length < 2 ^ 32
  message_fits : message.length < 2 ^ 32

section Stream

variable {segments : List TcpSegment}

/-- The stream position behind the frame. -/
def FrameOnStream.stop (onStream : FrameOnStream segments) : Nat :=
  (frames onStream.sent ++ frame onStream.message).length

theorem server_reads_message (onStream : FrameOnStream segments) :
    readFrames (onStream.sent.length + 1) (streamOf segments) =
      some (onStream.sent ++ [onStream.message], onStream.rest) := by
  have fits : ∀ other ∈ onStream.sent ++ [onStream.message], other.length < 2 ^ 32 := by
    intro other member
    rcases List.mem_append.mp member with earlier | last
    · exact onStream.sent_fit other earlier
    · rw [List.mem_singleton.mp last]
      exact onStream.message_fits
  have read := read_frames_frames fits onStream.rest
  have split : frames (onStream.sent ++ [onStream.message]) =
      frames onStream.sent ++ frame onStream.message := by
    simp [frames]
  rwa [split, List.length_append, List.length_singleton, ← onStream.stream_eq] at read

/-- The segment carries a byte of the stream before position `stop`. -/
def CarriesBefore (stop : Nat) (segments : List TcpSegment) (segment : TcpSegment) : Prop :=
  ∃ earlier later, segments = earlier ++ segment :: later ∧
    (streamOf earlier).length < stop ∧ segment.payload ≠ []

def AcceptedBefore (api : SkbApi) (processMessage : List Byte → Verdict)
    (segments : List TcpSegment) (stop : Nat) : Prop :=
  ∀ segment, CarriesBefore stop segments segment →
    (hookFunc api processMessage (some segment.toSkBuff)).verdict = .accept

/-- A pushed segment before `stop` begins with the whole frame of a message the
hook passes on, one of 1 to 1023 bytes. -/
def InspectedWhole (segments : List TcpSegment) (stop : Nat) (message : List Byte) : Prop :=
  ∃ segment, CarriesBefore stop segments segment ∧ segment.psh = true ∧
    1 ≤ message.length ∧ message.length ≤ 1023 ∧
      ∃ trailing, segment.payload = frame message ++ trailing

/-- Every pushed segment before `stop` is inspected within its own payload. -/
def InspectionsInside (api : SkbApi) (segments : List TcpSegment) (stop : Nat) : Prop :=
  ∀ segment, CarriesBefore stop segments segment → segment.psh = true →
    StaysInside segment.payload ∧
      (segment.isNonlinear = true → api.skbCopy segment.toSkBuff ≠ none)

theorem whole_frame_not_dropped {api : SkbApi} (faithful : api.Faithful)
    (processMessage : List Byte → Verdict) (segment : TcpSegment) (pushed : segment.psh = true)
    {message trailing : List Byte} (positive : 1 ≤ message.length) (small : message.length ≤ 1023)
    (payload : segment.payload = frame message ++ trailing)
    (accepted : (hookFunc api processMessage (some segment.toSkBuff)).verdict = .accept) :
    processMessage message = .accept := by
  have bounded : message.length < bufferSize := Nat.lt_succ_of_le small
  have copies : segment.isNonlinear = true → api.skbCopy segment.toSkBuff ≠ none := by
    intro nonlinear failed
    rw [hook_func_copy_failed processMessage segment.view_ip_selected
      (segment.view_tcp_selected pushed) nonlinear failed] at accepted
    cases accepted
  have refined := hook_func_refines faithful processMessage segment pushed copies
    (payload ▸ frame_stays_inside bounded trailing)
  rw [refined.1, inspectedVerdict, payload, inspect_frame positive bounded] at accepted
  exact accepted

/-- A rule that drops one message accepts every segment that does not begin
with that message's frame. -/
theorem uninspected_segment_accepted {api : SkbApi} (faithful : api.Faithful)
    (message : List Byte) (segment : TcpSegment)
    (inside : segment.psh = true → StaysInside segment.payload ∧
      (segment.isNonlinear = true → api.skbCopy segment.toSkBuff ≠ none))
    (absent : ¬(segment.psh = true ∧ 1 ≤ message.length ∧ message.length ≤ 1023 ∧
      ∃ trailing, segment.payload = frame message ++ trailing)) :
    (hookFunc api (fun other => if other = message then .drop else .accept)
      (some segment.toSkBuff)).verdict = .accept := by
  cases pushed : segment.psh with
  | false => rw [hook_func_unpushed api _ segment pushed]
  | true =>
      obtain ⟨stays, copies⟩ := inside pushed
      rw [(hook_func_refines faithful _ segment pushed copies stays).1, inspectedVerdict]
      cases inspected : inspect segment.payload with
      | none => rfl
      | some other =>
          obtain ⟨positive, small, trailing, payload⟩ := inspect_length stays inspected
          refine if_neg fun same => absent ⟨pushed, ?_⟩
          rw [← same]
          exact ⟨positive, Nat.le_of_lt_succ small, trailing, payload⟩

end Stream

theorem short_frame_fits {message : List Byte} (small : message.length ≤ 1023) :
    (frame message).length ≤ 65495 := by
  rw [frame_length]
  omega

def singleFrame (pushed : Bool) (message : List Byte) (small : message.length ≤ 1023) :
    FrameOnStream [linearSegment pushed (frame message) (short_frame_fits small) fun _ => 0] where
  sent := []
  message := message
  rest := []
  stream_eq := by
    simp only [streamOf, List.map_cons, List.map_nil, List.flatten_cons, List.flatten_nil,
      linear_segment_payload, frames]
    simp
  sent_fit := by simp
  message_fits := small.trans_lt (by decide)

/-- The first of two frames cut inside its prefix, the second one pushed whole
together with the beginning of a third. -/
def cutSegments : List TcpSegment :=
  [linearSegment false [0, 0] (by decide) fun _ => 0,
    linearSegment false [0, 1, 7] (by decide) fun _ => 0,
    linearSegment true (frame [8, 150, 1] ++ [0, 0]) (by decide) fun _ => 0]

theorem cut_stream : streamOf cutSegments = frame [7] ++ frame [8, 150, 1] ++ [0, 0] := by
  simp only [streamOf, cutSegments, List.map_cons, List.map_nil, linear_segment_payload]
  rfl

def cutFirst : FrameOnStream cutSegments where
  sent := []
  message := [7]
  rest := frame [8, 150, 1] ++ [0, 0]
  stream_eq := cut_stream
  sent_fit := by simp
  message_fits := by decide

def cutSecond : FrameOnStream cutSegments where
  sent := [[7]]
  message := [8, 150, 1]
  rest := [0, 0]
  stream_eq := cut_stream
  sent_fit := by simp
  message_fits := by decide

theorem cut_pushed {stop : Nat} {segment : TcpSegment}
    (carries : CarriesBefore stop cutSegments segment) (pushed : segment.psh = true) :
    segment = linearSegment true (frame [8, 150, 1] ++ [0, 0]) (by decide) fun _ => 0 := by
  obtain ⟨earlier, later, split, _⟩ := carries
  have member : segment ∈ cutSegments := split ▸ List.mem_append_right _ List.mem_cons_self
  simp only [cutSegments, List.mem_cons, List.not_mem_nil, or_false] at member
  rcases member with rfl | rfl | rfl
  · rw [linear_segment_psh] at pushed
    cases pushed
  · rw [linear_segment_psh] at pushed
    cases pushed
  · rfl

theorem cut_inspections_inside (stop : Nat) :
    InspectionsInside (copyingApi fun _ => 0) cutSegments stop := by
  intro segment carries pushed
  rw [cut_pushed carries pushed, linear_segment_payload]
  exact ⟨frame_stays_inside (by decide) [0, 0], fun _ => by simp [copyingApi]⟩

end ProtobufLkm.NetfilterSegmentation
