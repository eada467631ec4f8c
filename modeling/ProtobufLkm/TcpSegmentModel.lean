import ProtobufLkm.NetfilterHookModel

/-!
# What the hook does to one TCP segment

The abstract filter looks at a payload and nothing else: it takes the first four
bytes as a size and hands that many bytes to the rule. The results below say
when `hook_func` refines it. The hook never compares the declared size with the
payload, so the refinement needs the inspection to stay inside the segment.
-/

namespace ProtobufLkm.TcpSegmentModel

open ByteCodec ByteMemory SkBuffModel MessageSizeModel NetfilterHookModel

set_option autoImplicit false

section Handed

variable {api : SkbApi} (processMessage : List Byte → Verdict)

/-- The buffer `hook_func` passes to `handle_tcp_payload`, if it passes one. -/
def handedSkb (api : SkbApi) (skb : SkBuff) : Option SkBuff :=
  if IpSelected skb.view ∧ TcpSelected skb.view skb.transportHeader then
    if skb.isNonlinear then
      (api.skbCopy skb).bind fun skbLinear =>
        let (ret, linearized) := api.skbLinearize skbLinear
        if ret = 0 then some linearized else none
    else some skb
  else none

/-- Operations on the copy: they read no payload and call nothing. -/
def Quiet (events : List HookEvent) : Prop :=
  ∀ event ∈ events, (∃ address, event = .skbCopy address) ∨
    (∃ address ret, event = .skbLinearize address ret) ∨ ∃ address, event = .kfreeSkb address

theorem Quiet.calls_eq_nil {events : List HookEvent} (quiet : Quiet events) :
    events.filterMap HookEvent.call = [] := by
  rw [List.filterMap_eq_nil_iff]
  intro event member
  rcases quiet event member with ⟨_, rfl⟩ | ⟨_, _, rfl⟩ | ⟨_, rfl⟩ <;> rfl

theorem handed_skb_selected {skb handed : SkBuff} (hands : handedSkb api skb = some handed) :
    IpSelected skb.view ∧ TcpSelected skb.view skb.transportHeader := by
  by_contra unselected
  rw [handedSkb, if_neg unselected] at hands
  cases hands

/-- What is handed over is the buffer itself, or its copy if it is not linear. -/
theorem handed_skb_cases (faithful : api.Faithful) {skb handed : SkBuff}
    (hands : handedSkb api skb = some handed) :
    (skb.isNonlinear = false ∧ handed = skb) ∨
      (skb.isNonlinear = true ∧ api.skbCopy skb = some handed) := by
  rw [handedSkb, if_pos (handed_skb_selected hands)] at hands
  cases linear : skb.isNonlinear with
  | false =>
      simp only [linear, Bool.false_eq_true, if_false, Option.some.injEq] at hands
      exact Or.inl ⟨rfl, hands.symm⟩
  | true =>
      rw [if_pos linear] at hands
      obtain ⟨copied, success, hands⟩ := Option.bind_eq_some_iff.mp hands
      have linearized := faithful.linearize_linear copied (faithful.copy_linear _ _ success)
      simp only [linearized, if_true, Option.some.injEq] at hands
      rw [← hands]
      exact Or.inr ⟨rfl, success⟩

theorem hook_func_of_handed (faithful : api.Faithful) {skb handed : SkBuff}
    (hands : handedSkb api skb = some handed) :
    ∃ earlier, Quiet earlier ∧
      hookFunc api processMessage (some skb) =
        (handleTcpPayload processMessage handed).after earlier := by
  obtain ⟨ip, tcp⟩ := handed_skb_selected hands
  rcases handed_skb_cases faithful hands with ⟨linear, rfl⟩ | ⟨nonlinear, success⟩
  · exact ⟨[], by simp [Quiet], hook_func_linear api processMessage ip tcp linear⟩
  · refine ⟨_, ?_, hook_func_copied faithful processMessage ip tcp nonlinear success⟩
    simp [Quiet]

/-- The buffer that is handed over is linear and still the validated packet. -/
theorem handed_skb_linear (faithful : api.Faithful) (skb : LocalInSkb) {handed : SkBuff}
    (hands : handedSkb api skb.toSkBuff = some handed) :
    ∃ packet : LocalInSkb, packet.toSkBuff = handed ∧ packet.bytes = skb.bytes ∧
      packet.headLen = packet.bytes.length := by
  rcases handed_skb_cases faithful hands with ⟨linear, rfl⟩ | ⟨_, success⟩
  · exact ⟨skb, rfl, rfl, (is_nonlinear_eq_false_iff skb).mp linear⟩
  · exact ⟨faithful.copied skb success, rfl, faithful.copy_bytes _ _ success,
      faithful.copy_linear _ _ success⟩

theorem handed_skb_of_selected (faithful : api.Faithful) {skb : SkBuff}
    (ip : IpSelected skb.view) (tcp : TcpSelected skb.view skb.transportHeader)
    (copies : skb.isNonlinear = true → api.skbCopy skb ≠ none) :
    ∃ handed, handedSkb api skb = some handed := by
  rw [handedSkb, if_pos ⟨ip, tcp⟩]
  cases linear : skb.isNonlinear with
  | false => exact ⟨skb, by simp⟩
  | true =>
      obtain ⟨copied, success⟩ := Option.ne_none_iff_exists'.mp (copies linear)
      have linearized := faithful.linearize_linear copied (faithful.copy_linear _ _ success)
      exact ⟨copied, by simp [success, linearized]⟩

end Handed

/-- A packet with a complete TCP header to port 60001 on the loopback address,
the header in the linear head. Flags, options and payload are arbitrary. -/
structure TcpSegment extends LocalInSkb where
  ip_selected : IpSelected (packetMemory bytes)
  dest_port : decodeBE (load (packetMemory bytes) (toLocalInSkb.tcpOffset + 2) 2) = myPort
  doff_ge : 5 ≤ tcpDoff (packetMemory bytes) toLocalInSkb.tcpOffset
  header_fits : toLocalInSkb.tcpOffset +
    tcpDoff (packetMemory bytes) toLocalInSkb.tcpOffset * 4 ≤ bytes.length
  header_in_head : toLocalInSkb.tcpOffset + 20 ≤ headLen

namespace TcpSegment

variable (segment : TcpSegment)

def psh : Bool := tcpPsh (packetMemory segment.bytes) segment.tcpOffset ≠ 0

def payloadOffset : Nat :=
  segment.tcpOffset + tcpDoff (packetMemory segment.bytes) segment.tcpOffset * 4

def payload : List Byte := segment.bytes.drop segment.payloadOffset

theorem view_ip_selected : IpSelected segment.view := by
  have head := segment.twenty_le_head
  have bounds := segment.head_le
  have selected := segment.ip_selected
  rw [IpSelected, packetMemory, load_overlay_inside _ (by omega)] at selected
  rw [IpSelected, segment.view_protocol, load_view_inside_head segment.head_le (by omega)]
  exact selected

theorem view_tcp_selected (pushed : segment.psh = true) :
    TcpSelected segment.view segment.transportHeader := by
  have header := segment.header_in_head
  have bounds := segment.head_le
  have port := segment.dest_port
  have offset : segment.transportHeader = segment.tcpOffset := segment.transport_eq
  rw [packetMemory, load_overlay_inside _ (by omega)] at port
  constructor
  · rw [offset, load_view_inside_head segment.head_le (by omega)]
    exact port
  · rw [offset, tcpPsh, view_inside_head segment.head_le (by omega)]
    simpa [psh, tcpPsh] using pushed

theorem not_view_tcp_selected (unpushed : segment.psh = false) :
    ¬TcpSelected segment.view segment.transportHeader := by
  have header := segment.header_in_head
  have offset : segment.transportHeader = segment.tcpOffset := segment.transport_eq
  rintro ⟨_, selected⟩
  rw [offset, tcpPsh, view_inside_head segment.head_le (by omega)] at selected
  simp [psh, tcpPsh] at unpushed
  omega

theorem view_doff : tcpDoff segment.view segment.tcpOffset =
    tcpDoff (packetMemory segment.bytes) segment.tcpOffset := by
  have header := segment.header_in_head
  rw [tcpDoff, tcpDoff, view_inside_head segment.head_le (by omega)]

theorem handed_of_linear {api : SkbApi} (pushed : segment.psh = true)
    (linear : segment.isNonlinear = false) :
    handedSkb api segment.toSkBuff = some segment.toSkBuff := by
  rw [handedSkb, if_pos ⟨segment.view_ip_selected, segment.view_tcp_selected pushed⟩,
    if_neg (by simp [linear])]

end TcpSegment

/-- The message a payload hands to the rule: the bytes its first four bytes announce. -/
def inspect (payload : List Byte) : Option (List Byte) :=
  let size := decodeBE (payload.take 4)
  if 1 ≤ size ∧ size < bufferSize then some ((payload.drop 4).take size) else none

/-- Inspecting the payload reads nothing past its end. -/
def StaysInside (payload : List Byte) : Prop :=
  payload = [] ∨ 4 ≤ payload.length ∧
    (decodeBE (payload.take 4) = 0 ∨ bufferSize ≤ decodeBE (payload.take 4) ∨
      4 + decodeBE (payload.take 4) ≤ payload.length)

instance (payload : List Byte) : Decidable (StaysInside payload) :=
  inferInstanceAs (Decidable (_ ∨ _ ∧ _))

def inspectedVerdict (processMessage : List Byte → Verdict) (payload : List Byte) : Verdict :=
  match inspect payload with
  | none => .accept
  | some message => processMessage message

def inspectedCalls (payload : List Byte) : List (List Byte × Int) :=
  match inspect payload with
  | none => []
  | some message => [(message, message.length)]

theorem inspect_length {payload message : List Byte} (inside : StaysInside payload)
    (inspected : inspect payload = some message) :
    1 ≤ message.length ∧ message.length < bufferSize ∧
      ∃ trailing, payload = encodeBE 4 message.length ++ message ++ trailing := by
  simp only [inspect] at inspected
  split_ifs at inspected with size
  simp only [Option.some.injEq] at inspected
  rcases inside with rfl | ⟨header, room⟩
  · simp [decodeBE] at size
  have body : 4 + decodeBE (payload.take 4) ≤ payload.length := by omega
  have width : (payload.take 4).length = 4 := by simp only [List.length_take]; omega
  have length : message.length = decodeBE (payload.take 4) := by
    rw [← inspected, List.length_take, List.length_drop]
    omega
  have field : encodeBE 4 message.length = payload.take 4 := by
    have decoded := encode_be_decode (payload.take 4) 0
    rwa [width, Nat.zero_mul, Nat.zero_add, ← length] at decoded
  refine ⟨by omega, by omega, (payload.drop 4).drop (decodeBE (payload.take 4)), ?_⟩
  rw [field, List.append_assoc, ← inspected, List.take_append_drop, List.take_append_drop]

section LinearPacket

variable (packet : LocalInSkb)

theorem payload_buffer_eq :
    payloadBuffer packet.toSkBuff =
      packet.tcpOffset + tcpDoff packet.view packet.tcpOffset * 4 := by
  rw [payloadBuffer, packet.transport_eq]
  rfl

theorem payload_buffer_le : payloadBuffer packet.toSkBuff ≤ 120 := by
  have bounds := packet.tcp_offset_bounds
  have field := (packet.view (packet.tcpOffset + 12)).isLt
  rw [payload_buffer_eq, tcpDoff]
  omega

theorem payload_len_eq :
    payloadLen packet.toSkBuff =
      toUInt32 ((packet.bytes.length : Int) - payloadBuffer packet.toSkBuff) := by
  rw [payloadLen, packet.view_tot_len, packet.view_ihl, payload_buffer_eq, packet.transport_eq]
  apply congrArg toUInt32
  simp only [LocalInSkb.tcpOffset]
  omega

/-- The unsigned test `payload_len > 0` fails exactly when the payload is
empty; a header longer than the packet passes it. -/
theorem payload_len_pos_iff :
    0 < payloadLen packet.toSkBuff ↔ packet.bytes.length ≠ payloadBuffer packet.toSkBuff := by
  have total := packet.tot_len_lt
  have buffer := payload_buffer_le packet
  have zero : toUInt32 ((packet.bytes.length : Int) - payloadBuffer packet.toSkBuff) = 0 ↔
      (packet.bytes.length : Int) - payloadBuffer packet.toSkBuff = 0 :=
    to_uint32_eq_zero_iff (by omega) (by omega)
  rw [payload_len_eq]
  omega

theorem payload_size_inside (linear : packet.headLen = packet.bytes.length)
    (inside : payloadBuffer packet.toSkBuff + 4 ≤ packet.bytes.length) :
    payloadSize packet.toSkBuff =
      decodeBE ((packet.bytes.drop (payloadBuffer packet.toSkBuff)).take 4) := by
  rw [payloadSize, declaredSize, load_view_inside_head packet.head_le (by omega)]

/-- On a linear packet whose inspection stays inside, `handle_tcp_payload` is
the abstract filter on the bytes after the TCP header. -/
theorem handle_tcp_payload_refines (processMessage : List Byte → Verdict)
    (linear : packet.headLen = packet.bytes.length)
    (inside : StaysInside (packet.bytes.drop (payloadBuffer packet.toSkBuff)))
    (fits : payloadBuffer packet.toSkBuff ≤ packet.bytes.length) :
    (handleTcpPayload processMessage packet.toSkBuff).verdict =
        inspectedVerdict processMessage (packet.bytes.drop (payloadBuffer packet.toSkBuff)) ∧
      (handleTcpPayload processMessage packet.toSkBuff).calls =
        inspectedCalls (packet.bytes.drop (payloadBuffer packet.toSkBuff)) := by
  set payload := packet.bytes.drop (payloadBuffer packet.toSkBuff) with payloadDef
  have length : payload.length = packet.bytes.length - payloadBuffer packet.toSkBuff := by
    rw [payloadDef, List.length_drop]
  rcases inside with empty | ⟨header, room⟩
  · have zero : payloadLen packet.toSkBuff = 0 := by
      have none := payload_len_pos_iff packet
      have size : payload.length = 0 := by rw [empty]; rfl
      omega
    rw [handle_tcp_payload_empty processMessage zero, inspectedVerdict, inspectedCalls, empty]
    exact ⟨rfl, rfl⟩
  · have nonempty : 0 < payloadLen packet.toSkBuff := (payload_len_pos_iff packet).mpr (by omega)
    have size : payloadSize packet.toSkBuff = decodeBE (payload.take 4) :=
      payload_size_inside packet linear (by omega)
    by_cases sizeInside : 1 ≤ decodeBE (payload.take 4) ∧ decodeBE (payload.take 4) < bufferSize
    · have message : load packet.view (payloadBuffer packet.toSkBuff + 4)
          (payloadSize packet.toSkBuff) = (payload.drop 4).take (decodeBE (payload.take 4)) := by
        rw [load_view_inside_head packet.head_le (by omega), payloadDef, List.drop_drop, size]
      have whole : ((payload.drop 4).take (decodeBE (payload.take 4))).length =
          payloadSize packet.toSkBuff := by
        rw [← message, load_length]
      rw [handle_tcp_payload_message processMessage nonempty (by omega) (by omega),
        inspectedVerdict, inspectedCalls, inspect, if_pos sizeInside, message]
      refine ⟨rfl, ?_⟩
      simp only [HookRun.calls, List.filterMap_cons, HookEvent.call, List.filterMap_nil, whole]
    · rw [handle_tcp_payload_refused processMessage nonempty (by omega), inspectedVerdict,
        inspectedCalls, inspect, if_neg sizeInside]
      exact ⟨rfl, rfl⟩

end LinearPacket

/-- The hook refines the abstract filter on every pushed segment whose
inspection stays inside, however the packet is stored, unless the copy fails. -/
theorem hook_func_refines {api : SkbApi} (faithful : api.Faithful)
    (processMessage : List Byte → Verdict) (segment : TcpSegment) (pushed : segment.psh = true)
    (copies : segment.isNonlinear = true → api.skbCopy segment.toSkBuff ≠ none)
    (inside : StaysInside segment.payload) :
    (hookFunc api processMessage (some segment.toSkBuff)).verdict =
        inspectedVerdict processMessage segment.payload ∧
      (hookFunc api processMessage (some segment.toSkBuff)).calls =
        inspectedCalls segment.payload := by
  obtain ⟨handed, hands⟩ := handed_skb_of_selected faithful segment.view_ip_selected
    (segment.view_tcp_selected pushed) copies
  obtain ⟨earlier, quiet, run⟩ := hook_func_of_handed processMessage faithful hands
  obtain ⟨packet, rfl, bytes, linear⟩ := handed_skb_linear faithful segment.toLocalInSkb hands
  have header := segment.header_in_head
  have total := segment.head_le
  have offset : packet.tcpOffset = segment.tcpOffset := by
    rw [LocalInSkb.tcpOffset, LocalInSkb.tcpOffset, bytes]
  have doff : tcpDoff packet.view packet.tcpOffset =
      tcpDoff (packetMemory segment.bytes) segment.tcpOffset := by
    rw [tcpDoff, tcpDoff, view_inside_head packet.head_le (by rw [linear, bytes]; omega),
      bytes, offset]
  have buffer : payloadBuffer packet.toSkBuff = segment.payloadOffset := by
    rw [payload_buffer_eq, doff, offset, TcpSegment.payloadOffset]
  have payload : packet.bytes.drop (payloadBuffer packet.toSkBuff) = segment.payload := by
    rw [buffer, bytes, TcpSegment.payload]
  have fits : payloadBuffer packet.toSkBuff ≤ packet.bytes.length := by
    rw [buffer, bytes]
    exact segment.header_fits
  have refined := handle_tcp_payload_refines packet processMessage linear (by rwa [payload]) fits
  rw [run, after_verdict, after_calls quiet.calls_eq_nil, ← payload]
  exact refined

/-- The hook has a linear buffer for the segment. -/
def buffered (api : SkbApi) (segment : TcpSegment) : Bool :=
  !segment.isNonlinear || (api.skbCopy segment.toSkBuff).isSome

theorem buffered_copies {api : SkbApi} {segment : TcpSegment}
    (inspects : buffered api segment = true) :
    segment.isNonlinear = true → api.skbCopy segment.toSkBuff ≠ none := by
  intro nonlinear failed
  simp [buffered, nonlinear, failed] at inspects

theorem unbuffered_run {api : SkbApi} (processMessage : List Byte → Verdict)
    {segment : TcpSegment} (pushed : segment.psh = true)
    (unbuffered : buffered api segment = false) :
    hookFunc api processMessage (some segment.toSkBuff) =
      { events := [.skbCopy none], verdict := .drop } := by
  simp only [buffered, Bool.or_eq_false_iff, Bool.not_eq_false', Option.isSome_eq_false_iff,
    Option.isNone_iff_eq_none] at unbuffered
  exact hook_func_copy_failed processMessage segment.view_ip_selected
    (segment.view_tcp_selected pushed) unbuffered.1 unbuffered.2

/-- Without a buffer the hook drops a pushed segment whatever it carries. -/
theorem unbuffered_dropped {api : SkbApi} (processMessage : List Byte → Verdict)
    {segment : TcpSegment} (pushed : segment.psh = true)
    (unbuffered : buffered api segment = false) :
    (hookFunc api processMessage (some segment.toSkBuff)).verdict = .drop := by
  rw [unbuffered_run processMessage pushed unbuffered]

theorem hook_func_unpushed (api : SkbApi) (processMessage : List Byte → Verdict)
    (segment : TcpSegment) (unpushed : segment.psh = false) :
    hookFunc api processMessage (some segment.toSkBuff) = { events := [], verdict := .accept } :=
  hook_func_unselected api processMessage fun selected =>
    segment.not_view_tcp_selected unpushed selected.2

section PlainSegments

variable (pushed : Bool) (payload : List Byte)

/-- The headers of a packet without options from port 12345 to port 60001 on loopback. -/
def plainHeaders (payloadLength : Nat) : List Byte :=
  [0x45, 0] ++ encodeBE 2 (40 + payloadLength) ++
    [0, 0, 0, 0, 64, 6, 0, 0, 127, 0, 0, 1, 127, 0, 0, 1,
      0x30, 0x39, 0xEA, 0x61, 0, 0, 0, 0, 0, 0, 0, 0, 0x50, if pushed then 0x18 else 0x10,
      0xFF, 0xFF, 0, 0, 0, 0]

def plainPacket : List Byte := plainHeaders pushed payload.length ++ payload

theorem plain_headers_length (payloadLength : Nat) :
    (plainHeaders pushed payloadLength).length = 40 := rfl

theorem plain_packet_length : (plainPacket pushed payload).length = 40 + payload.length := by
  rw [plainPacket, List.length_append, plain_headers_length]

theorem plain_packet_field {offset : Nat} (inside : offset < 40) {byte : Byte}
    (field : (plainHeaders pushed payload.length)[offset]? = some byte) :
    packetMemory (plainPacket pushed payload) offset = byte := by
  have bound : offset < (plainHeaders pushed payload.length).length := inside
  rw [List.getElem?_eq_getElem bound, Option.some.injEq] at field
  exact (overlay_append_inside payload _ bound).trans ((overlay_inside _ bound).trans field)

theorem plain_packet_word {start count : Nat} (inside : start + count ≤ 40) :
    load (packetMemory (plainPacket pushed payload)) start count =
      ((plainHeaders pushed payload.length).drop start).take count := by
  have bound : start + count ≤ (plainHeaders pushed payload.length).length := inside
  rw [← load_overlay_inside (fun _ => 0) bound]
  exact load_congr fun offset _ upper => overlay_append_inside payload _ (by omega)

theorem plain_packet_ihl : ipIhl (packetMemory (plainPacket pushed payload)) = 5 := by
  rw [ipIhl, plain_packet_field pushed payload (by decide) rfl]
  rfl

theorem plain_packet_doff : tcpDoff (packetMemory (plainPacket pushed payload)) 20 = 5 := by
  rw [tcpDoff, plain_packet_field pushed payload (by decide) rfl]
  rfl

theorem plain_packet_psh :
    tcpPsh (packetMemory (plainPacket pushed payload)) 20 = pushed.toNat := by
  rw [tcpPsh, plain_packet_field pushed payload (by decide) rfl]
  cases pushed <;> rfl

theorem plain_packet_selected : IpSelected (packetMemory (plainPacket pushed payload)) := by
  constructor
  · rw [ipProtocol, plain_packet_field pushed payload (by decide) rfl]
    rfl
  · have field : ((plainHeaders pushed payload.length).drop 16).take 4 = [127, 0, 0, 1] := rfl
    rw [plain_packet_word pushed payload (by decide), field]
    rfl

theorem plain_packet_port :
    decodeBE (load (packetMemory (plainPacket pushed payload)) 22 2) = myPort := by
  have field : ((plainHeaders pushed payload.length).drop 22).take 2 = [0xEA, 0x61] := rfl
  rw [plain_packet_word pushed payload (by decide), field]
  rfl

theorem plain_packet_tot_len (fits : payload.length ≤ 65495) :
    decodeBE (((plainPacket pushed payload).drop 2).take 2) =
      (plainPacket pushed payload).length := by
  have field : ((plainPacket pushed payload).drop 2).take 2 =
      encodeBE 2 (40 + payload.length) := rfl
  rw [field, decode_be_encode_of_lt (by omega), plain_packet_length]

/-- A minimal segment around a payload, `headLen` bytes of it in the linear head. -/
def plainSegment (fits : payload.length ≤ 65495) (headLen : Nat) (header : 40 ≤ headLen)
    (inside : headLen ≤ (plainPacket pushed payload).length) (outside : Memory) : TcpSegment where
  address := 0
  bytes := plainPacket pushed payload
  headLen := headLen
  transportHeader := 20
  outside := outside
  head_le := inside
  ihl_ge := (plain_packet_ihl pushed payload).ge
  ip_header_in_head := by rw [plain_packet_ihl]; omega
  tot_len_eq := plain_packet_tot_len pushed payload fits
  transport_eq := by rw [plain_packet_ihl]
  ip_selected := plain_packet_selected pushed payload
  dest_port := by
    simp only [LocalInSkb.tcpOffset, plain_packet_ihl]
    exact plain_packet_port pushed payload
  doff_ge := by
    simp only [LocalInSkb.tcpOffset, plain_packet_ihl]
    exact (plain_packet_doff pushed payload).ge
  header_fits := by
    have doff := plain_packet_doff pushed payload
    simp only [LocalInSkb.tcpOffset, plain_packet_ihl, Nat.reduceMul, doff, plain_packet_length]
    omega
  header_in_head := by
    simp only [LocalInSkb.tcpOffset, plain_packet_ihl]
    exact header

def linearSegment (fits : payload.length ≤ 65495) (outside : Memory) : TcpSegment :=
  plainSegment pushed payload fits (plainPacket pushed payload).length
    (by rw [plain_packet_length]; omega) le_rfl outside

variable {pushed payload} {headLen : Nat} (fits : payload.length ≤ 65495) (header : 40 ≤ headLen)
  (inside : headLen ≤ (plainPacket pushed payload).length) (outside : Memory)

theorem plain_segment_offset :
    (plainSegment pushed payload fits headLen header inside outside).tcpOffset = 20 :=
  (plainSegment pushed payload fits headLen header inside outside).transport_eq.symm

theorem plain_segment_payload :
    (plainSegment pushed payload fits headLen header inside outside).payload = payload := by
  rw [TcpSegment.payload, TcpSegment.payloadOffset, plain_segment_offset]
  have doff := plain_packet_doff pushed payload
  simp only [plainSegment, doff]
  exact List.drop_left' (plain_headers_length pushed payload.length)

theorem plain_segment_psh :
    (plainSegment pushed payload fits headLen header inside outside).psh = pushed := by
  have bit : tcpPsh (packetMemory (plainSegment pushed payload fits headLen header inside
      outside).bytes) (plainSegment pushed payload fits headLen header inside outside).tcpOffset =
        pushed.toNat := by
    rw [plain_segment_offset]
    exact plain_packet_psh pushed payload
  simp only [TcpSegment.psh, bit]
  cases pushed <;> rfl

theorem linear_segment_linear : (linearSegment pushed payload fits outside).isNonlinear = false :=
  (is_nonlinear_eq_false_iff (linearSegment pushed payload fits outside).toLocalInSkb).mpr rfl

theorem linear_segment_payload : (linearSegment pushed payload fits outside).payload = payload :=
  plain_segment_payload fits _ le_rfl outside

theorem linear_segment_psh : (linearSegment pushed payload fits outside).psh = pushed :=
  plain_segment_psh fits _ le_rfl outside

end PlainSegments

end ProtobufLkm.TcpSegmentModel
