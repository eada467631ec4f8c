import ProtobufLkm.NetfilterFrameRoundTrip

/-!
# Which packets the hook reads inside their payload

`handle_tcp_payload` compares the payload length with zero and the declared size
with the buffer size, never the two with each other. The exact set of packets
whose reads stay inside is therefore smaller than the set it processes.
-/

namespace ProtobufLkm.NetfilterPacketBounds

open ByteCodec ByteMemory SkBuffModel MessageSizeModel NetfilterHookModel TcpSegmentModel
open NetfilterFrameRoundTrip LengthFraming

set_option autoImplicit false

section Windows

variable (packet : LocalInSkb)

/-- First payload byte by the two header length fields, `4 * ihl + 4 * doff`. -/
def payloadStart : Nat := packet.tcpOffset + tcpDoff packet.view packet.tcpOffset * 4

/-- `tot_len - 4 * ihl - 4 * doff` in the integers. -/
def payloadSpan : Int := (packet.bytes.length : Int) - payloadStart packet

/-- Every byte the event reads lies in the packet's TCP payload. -/
def ReadsInside : HookEvent → Prop
  | .extractMessageSize _ buffer =>
      buffer = payloadStart packet ∧ 4 ≤ payloadSpan packet
  | .processMessage _ buffer _ size =>
      buffer = payloadStart packet + 4 ∧ 4 + size ≤ payloadSpan packet
  | _ => True

/-- The headers end within the packet and what follows is empty, or at least a
size field that is zero, at least 1024 or within the rest of the packet. -/
def PayloadFits : Prop :=
  payloadStart packet ≤ packet.bytes.length ∧
    StaysInside (packet.bytes.drop (payloadStart packet))

end Windows

theorem quiet_reads_inside (packet : LocalInSkb) {events : List HookEvent} (quiet : Quiet events) :
    ∀ event ∈ events, ReadsInside packet event := by
  intro event member
  rcases quiet event member with ⟨_, rfl⟩ | ⟨_, _, rfl⟩ | ⟨_, rfl⟩ <;> trivial

theorem handled_inside_of_fits (processMessage : List Byte → Verdict) {packet : LocalInSkb}
    (linear : packet.headLen = packet.bytes.length) (fits : PayloadFits packet) :
    ∀ event ∈ (handleTcpPayload processMessage packet.toSkBuff).events,
      ReadsInside packet event := by
  have buffer : payloadBuffer packet.toSkBuff = payloadStart packet := payload_buffer_eq packet
  have length : (packet.bytes.drop (payloadStart packet)).length =
      packet.bytes.length - payloadStart packet := List.length_drop
  rcases fits with ⟨start, empty | ⟨header, room⟩⟩
  · have zero : payloadLen packet.toSkBuff = 0 := by
      have nonzero := payload_len_pos_iff packet
      have size : (packet.bytes.drop (payloadStart packet)).length = 0 := by rw [empty]; rfl
      omega
    rw [handle_tcp_payload_empty processMessage zero]
    simp
  · have nonempty : 0 < payloadLen packet.toSkBuff := by
      rw [payload_len_pos_iff, buffer]
      omega
    have size := payload_size_inside packet linear (by omega)
    rw [buffer] at size
    by_cases refused : payloadSize packet.toSkBuff = 0 ∨ bufferSize ≤ payloadSize packet.toSkBuff
    · rw [handle_tcp_payload_refused processMessage nonempty refused]
      simp only [List.mem_singleton, forall_eq, ReadsInside, payloadSpan]
      exact ⟨buffer, by omega⟩
    · rw [handle_tcp_payload_message processMessage nonempty (by omega) (by omega)]
      simp only [List.mem_cons, List.not_mem_nil, or_false, forall_eq_or_imp, forall_eq,
        ReadsInside, payloadSpan, buffer]
      exact ⟨⟨trivial, by omega⟩, trivial, by omega⟩

theorem fits_of_handled_inside (processMessage : List Byte → Verdict) {packet : LocalInSkb}
    (linear : packet.headLen = packet.bytes.length)
    (inside : ∀ event ∈ (handleTcpPayload processMessage packet.toSkBuff).events,
      ReadsInside packet event) : PayloadFits packet := by
  have buffer : payloadBuffer packet.toSkBuff = payloadStart packet := payload_buffer_eq packet
  have length : (packet.bytes.drop (payloadStart packet)).length =
      packet.bytes.length - payloadStart packet := List.length_drop
  by_cases exactEnd : packet.bytes.length = payloadStart packet
  · exact ⟨exactEnd.ge, Or.inl (List.drop_eq_nil_of_le exactEnd.le)⟩
  have nonempty : 0 < payloadLen packet.toSkBuff := by
    rw [payload_len_pos_iff, buffer]
    exact exactEnd
  by_cases refused : payloadSize packet.toSkBuff = 0 ∨ bufferSize ≤ payloadSize packet.toSkBuff
  · rw [handle_tcp_payload_refused processMessage nonempty refused] at inside
    have header := (inside _ (List.mem_singleton_self _)).2
    simp only [payloadSpan] at header
    have size := payload_size_inside packet linear (by omega)
    rw [buffer] at size
    exact ⟨by omega, Or.inr ⟨by omega, by omega⟩⟩
  · rw [handle_tcp_payload_message processMessage nonempty (by omega) (by omega)] at inside
    have body := (inside _ (List.mem_cons_of_mem _ (List.mem_singleton_self _))).2
    simp only [payloadSpan] at body
    have size := payload_size_inside packet linear (by omega)
    rw [buffer] at size
    exact ⟨by omega, Or.inr ⟨by omega, by omega⟩⟩

theorem segment_payload_fits_iff (segment : TcpSegment) :
    PayloadFits segment.toLocalInSkb ↔ StaysInside segment.payload := by
  have start : payloadStart segment.toLocalInSkb = segment.payloadOffset := by
    rw [payloadStart, segment.view_doff, TcpSegment.payloadOffset]
  rw [PayloadFits, start]
  exact and_iff_right segment.header_fits

/-- The hook's reads stay inside the payload of the packet it hands over exactly
when the declared size fits what follows it. -/
theorem hook_reads_inside_iff {api : SkbApi} (faithful : api.Faithful)
    (processMessage : List Byte → Verdict) (skb packet : LocalInSkb)
    (hands : handedSkb api skb.toSkBuff = some packet.toSkBuff) :
    (∀ event ∈ (hookFunc api processMessage (some skb.toSkBuff)).events,
      ReadsInside packet event) ↔ PayloadFits packet := by
  obtain ⟨earlier, quiet, run⟩ := hook_func_of_handed processMessage faithful hands
  obtain ⟨handed, same, _, handedLinear⟩ := handed_skb_linear faithful skb hands
  have linear : packet.headLen = packet.bytes.length := by
    rw [← same]
    exact handedLinear
  rw [run]
  simp only [HookRun.after, List.mem_append]
  constructor
  · intro inside
    exact fits_of_handled_inside processMessage linear fun event member =>
      inside event (Or.inr member)
  · rintro fits event (member | member)
    · exact quiet_reads_inside packet quiet event member
    · exact handled_inside_of_fits processMessage linear fits event member

theorem hook_reads_inside_iff_frame :
    let segment := linearSegment true (frame [8, 150, 1]) (by decide) fun _ => 0
    (∀ event ∈ (hookFunc (copyingApi fun _ => 0) (fun _ => .accept) (some segment.toSkBuff)).events,
      ReadsInside segment.toLocalInSkb event) ↔ PayloadFits segment.toLocalInSkb :=
  hook_reads_inside_iff (copying_api_faithful _) (fun _ => .accept)
    (linearSegment true (frame [8, 150, 1]) (by decide) fun _ => 0).toLocalInSkb
    (linearSegment true (frame [8, 150, 1]) (by decide) fun _ => 0).toLocalInSkb
    ((linearSegment true (frame [8, 150, 1]) (by decide) fun _ => 0).handed_of_linear
      (linear_segment_psh _ _) (linear_segment_linear _ _))

/-- Two message bytes behind a declared size of 500: the rule is handed 498
bytes from behind the packet. -/
theorem declared_size_outruns_payload :
    let segment := linearSegment true [0, 0, 1, 0xF4, 8, 1] (by decide) fun _ => 0
    ¬∀ event ∈ (hookFunc (copyingApi fun _ => 0) (fun _ => .accept) (some segment.toSkBuff)).events,
      ReadsInside segment.toLocalInSkb event := by
  intro segment inside
  have linear : segment.isNonlinear = false := linear_segment_linear _ _
  rw [hook_func_linear _ _ segment.view_ip_selected
    (segment.view_tcp_selected (linear_segment_psh _ _)) linear] at inside
  have fits := fits_of_handled_inside _
    ((is_nonlinear_eq_false_iff segment.toLocalInSkb).mp linear) inside
  rw [segment_payload_fits_iff, linear_segment_payload] at fits
  exact absurd fits (by decide)

end ProtobufLkm.NetfilterPacketBounds
