import ProtobufLkm.NetfilterPacketBounds

/-!
# When the outcome does not depend on how a packet is stored

The hook reads the TCP header before it asks whether the buffer is linear, and
it reads past the payload when the declared size says so. Both make the outcome
a function of memory that is not the packet. The result below is exact: it lists
the packets and linear heads for which no such byte is ever decisive.
-/

namespace ProtobufLkm.NetfilterStorage

open ByteCodec ByteMemory SkBuffModel MessageSizeModel NetfilterHookModel TcpSegmentModel
open NetfilterPacketBounds NetfilterFrameRoundTrip LengthFraming

set_option autoImplicit false

/-- The same packet with another linear head and other memory behind it. -/
def reheld (skb : LocalInSkb) (headLen : Nat) (inside : headLen ≤ skb.bytes.length)
    (header : ipIhl (packetMemory skb.bytes) * 4 ≤ headLen) (outside : Memory) : LocalInSkb where
  toSkBuff := { skb.toSkBuff with headLen := headLen, outside := outside }
  head_le := inside
  ihl_ge := skb.ihl_ge
  ip_header_in_head := header
  tot_len_eq := skb.tot_len_eq
  transport_eq := skb.transport_eq

def heldOver (skb : LocalInSkb) (outside : Memory) : LocalInSkb :=
  reheld skb skb.headLen skb.head_le skb.ip_header_in_head outside

def linearOver (skb : LocalInSkb) (outside : Memory) : LocalInSkb :=
  reheld skb skb.bytes.length le_rfl (skb.ip_header_in_head.trans skb.head_le) outside

/-- For every memory around the packet and its copies, and every rule, the
packet held like `skb` has the outcome it has when held fully linear. -/
def StorageIndependent (skb : LocalInSkb) : Prop :=
  ∀ (api : SkbApi) (processMessage : List Byte → Verdict) (held linear : LocalInSkb),
    api.Faithful → api.skbCopy held.toSkBuff ≠ none →
      held.bytes = skb.bytes → held.headLen = skb.headLen →
      linear.bytes = skb.bytes → linear.headLen = linear.bytes.length →
        (hookFunc api processMessage (some held.toSkBuff)).verdict =
            (hookFunc api processMessage (some linear.toSkBuff)).verdict ∧
          (hookFunc api processMessage (some held.toSkBuff)).calls =
            (hookFunc api processMessage (some linear.toSkBuff)).calls

section Conditions

variable (skb : LocalInSkb)

/-- The payload starts here by the packet's own header bytes. -/
def packetPayloadStart : Nat :=
  skb.tcpOffset + tcpDoff (packetMemory skb.bytes) skb.tcpOffset * 4

/-- A byte of the TCP header in the first `visible` bytes rules the packet out. -/
def RuledOut (visible : Nat) : Prop :=
  (skb.tcpOffset + 2 < visible ∧ packetMemory skb.bytes (skb.tcpOffset + 2) ≠ 0xEA) ∨
    (skb.tcpOffset + 3 < visible ∧ packetMemory skb.bytes (skb.tcpOffset + 3) ≠ 0x61) ∨
    (skb.tcpOffset + 13 < visible ∧ tcpPsh (packetMemory skb.bytes) skb.tcpOffset = 0)

/-- However the first four bytes of the payload continue past its end, they
announce no size the hook goes on with. -/
def SizeRefused (payload : List Byte) : Prop :=
  bufferSize ≤ decodeBE (payload.take 4) * 256 ^ (4 - (payload.take 4).length) ∨
    (4 ≤ payload.length ∧ decodeBE (payload.take 4) = 0)

/-- No memory behind the packet makes the hook call the rule. -/
def NeverCalls : Prop :=
  skb.tcpOffset + 12 < skb.bytes.length ∧
    (packetPayloadStart skb = skb.bytes.length ∨
      (packetPayloadStart skb < skb.bytes.length ∧
        SizeRefused (skb.bytes.drop (packetPayloadStart skb))))

/-- The outcome is the packet's own: it is not selected by its IP header or by
the part of its TCP header in the linear head, or no continuation of it reaches
the rule, or the header fields are in the head and the inspection stays inside. -/
def StorageDetermined : Prop :=
  ¬IpSelected (packetMemory skb.bytes) ∨ RuledOut skb skb.headLen ∨ NeverCalls skb ∨
    (skb.tcpOffset + 14 ≤ skb.headLen ∧ packetPayloadStart skb ≤ skb.bytes.length ∧
      StaysInside (skb.bytes.drop (packetPayloadStart skb)))

end Conditions

theorem tcp_selected_bytes (memory : Memory) (tcp : Nat) :
    TcpSelected memory tcp ↔
      memory (tcp + 2) = 0xEA ∧ memory (tcp + 3) = 0x61 ∧ tcpPsh memory tcp ≠ 0 := by
  have port : load memory (tcp + 2) 2 = [memory (tcp + 2), memory (tcp + 3)] := rfl
  have first := (memory (tcp + 2)).isLt
  have second := (memory (tcp + 3)).isLt
  simp only [TcpSelected, port, decodeBE, myPort, Fin.ext_iff, List.length_cons, List.length_nil]
  change _ ↔ (memory (tcp + 2)).val = 0xEA ∧ (memory (tcp + 3)).val = 0x61 ∧ _
  omega

theorem view_ip_selected_iff (skb : LocalInSkb) :
    IpSelected skb.view ↔ IpSelected (packetMemory skb.bytes) := by
  have head := skb.twenty_le_head
  have total := skb.head_le
  have daddr : load (packetMemory skb.bytes) 16 4 = (skb.bytes.drop 16).take 4 :=
    load_overlay_inside _ (by omega)
  rw [IpSelected, IpSelected, skb.view_protocol,
    load_view_inside_head skb.head_le (by omega), daddr]

theorem ruled_out_unselected {skb : LocalInSkb} (ruledOut : RuledOut skb skb.headLen) :
    ¬TcpSelected skb.view skb.transportHeader := by
  have offset : skb.transportHeader = skb.tcpOffset := skb.transport_eq
  rw [tcp_selected_bytes, offset]
  rintro ⟨first, second, flag⟩
  rcases ruledOut with ⟨visible, wrong⟩ | ⟨visible, wrong⟩ | ⟨visible, wrong⟩
  · exact wrong ((view_inside_head skb.head_le visible).symm.trans first)
  · exact wrong ((view_inside_head skb.head_le visible).symm.trans second)
  · rw [tcpPsh, view_inside_head skb.head_le visible] at flag
    exact flag wrong

theorem visible_selected {skb : LocalInSkb} (visible : skb.tcpOffset + 14 ≤ skb.headLen) :
    TcpSelected skb.view skb.transportHeader ↔ ¬RuledOut skb skb.headLen := by
  have offset : skb.transportHeader = skb.tcpOffset := skb.transport_eq
  rw [tcp_selected_bytes, offset, tcpPsh, view_inside_head skb.head_le (by omega),
    view_inside_head skb.head_le (by omega), view_inside_head skb.head_le (by omega), RuledOut,
    tcpPsh]
  constructor
  · rintro ⟨first, second, flag⟩ (⟨_, wrong⟩ | ⟨_, wrong⟩ | ⟨_, wrong⟩)
    · exact wrong first
    · exact wrong second
    · exact flag wrong
  · intro possible
    simp only [not_or, not_and, not_not] at possible
    exact ⟨possible.1 (by omega), possible.2.1 (by omega), possible.2.2 (by omega)⟩

theorem hook_func_handled {api : SkbApi} (faithful : api.Faithful)
    (processMessage : List Byte → Verdict) {skb : LocalInSkb}
    (copies : skb.isNonlinear = true → api.skbCopy skb.toSkBuff ≠ none)
    (ip : IpSelected skb.view) (tcp : TcpSelected skb.view skb.transportHeader) :
    ∃ packet : LocalInSkb, packet.bytes = skb.bytes ∧ packet.headLen = packet.bytes.length ∧
      (hookFunc api processMessage (some skb.toSkBuff)).verdict =
          (handleTcpPayload processMessage packet.toSkBuff).verdict ∧
        (hookFunc api processMessage (some skb.toSkBuff)).calls =
          (handleTcpPayload processMessage packet.toSkBuff).calls := by
  obtain ⟨handed, hands⟩ := handed_skb_of_selected faithful ip tcp copies
  obtain ⟨earlier, quiet, run⟩ := hook_func_of_handed processMessage faithful hands
  obtain ⟨packet, rfl, bytes, linear⟩ := handed_skb_linear faithful skb hands
  exact ⟨packet, bytes, linear, by rw [run, after_verdict],
    by rw [run, after_calls quiet.calls_eq_nil]⟩

section Offsets

variable {left right : LocalInSkb} (same : left.bytes = right.bytes)
include same

theorem tcp_offset_congr : left.tcpOffset = right.tcpOffset := by
  rw [LocalInSkb.tcpOffset, LocalInSkb.tcpOffset, same]

theorem packet_payload_start_congr : packetPayloadStart left = packetPayloadStart right := by
  rw [packetPayloadStart, packetPayloadStart, tcp_offset_congr same, same]

theorem ruled_out_congr (visible : Nat) : RuledOut left visible ↔ RuledOut right visible := by
  rw [RuledOut, RuledOut, tcp_offset_congr same, same]

theorem never_calls_congr : NeverCalls left ↔ NeverCalls right := by
  rw [NeverCalls, NeverCalls, packet_payload_start_congr same, tcp_offset_congr same, same]

end Offsets

theorem ruled_out_mono {skb : LocalInSkb} {visible more : Nat} (le : visible ≤ more)
    (ruledOut : RuledOut skb visible) : RuledOut skb more := by
  rcases ruledOut with ⟨seen, wrong⟩ | ⟨seen, wrong⟩ | ⟨seen, wrong⟩
  · exact Or.inl ⟨by omega, wrong⟩
  · exact Or.inr (Or.inl ⟨by omega, wrong⟩)
  · exact Or.inr (Or.inr ⟨by omega, wrong⟩)

theorem visible_not_ruled_out {skb : LocalInSkb} {visible : Nat}
    (header : skb.tcpOffset + 14 ≤ visible) (possible : ¬RuledOut skb visible) (more : Nat) :
    ¬RuledOut skb more := by
  rintro (⟨_, wrong⟩ | ⟨_, wrong⟩ | ⟨_, wrong⟩)
  · exact possible (Or.inl ⟨by omega, wrong⟩)
  · exact possible (Or.inr (Or.inl ⟨by omega, wrong⟩))
  · exact possible (Or.inr (Or.inr ⟨by omega, wrong⟩))

section LinearPacket

variable {packet : LocalInSkb} (linear : packet.headLen = packet.bytes.length)
include linear

theorem linear_payload_buffer (doff : packet.tcpOffset + 12 < packet.bytes.length) :
    payloadBuffer packet.toSkBuff = packetPayloadStart packet := by
  rw [payload_buffer_eq, packetPayloadStart, tcpDoff, tcpDoff,
    view_inside_head packet.head_le (by omega)]

theorem straddling_payload_size
    (starts : payloadBuffer packet.toSkBuff ≤ packet.bytes.length)
    (ends : packet.bytes.length ≤ payloadBuffer packet.toSkBuff + 4) :
    payloadSize packet.toSkBuff =
      decodeBE (packet.bytes.drop (payloadBuffer packet.toSkBuff)) *
          256 ^ (payloadBuffer packet.toSkBuff + 4 - packet.bytes.length) +
        decodeBE (load packet.outside packet.bytes.length
          (payloadBuffer packet.toSkBuff + 4 - packet.bytes.length)) := by
  rw [payloadSize, declaredSize, view_of_linear linear, load_overlay_straddling _ starts ends,
    decode_be_append, load_length]

theorem never_calls_handled (processMessage : List Byte → Verdict) (never : NeverCalls packet) :
    (handleTcpPayload processMessage packet.toSkBuff).verdict = .accept ∧
      (handleTcpPayload processMessage packet.toSkBuff).calls = [] := by
  rcases never with ⟨doff, empty | ⟨starts, refused⟩⟩
  · have buffer := linear_payload_buffer linear doff
    have zero : payloadLen packet.toSkBuff = 0 := by
      have nonzero := payload_len_pos_iff packet
      omega
    rw [handle_tcp_payload_empty processMessage zero]
    exact ⟨rfl, rfl⟩
  · have buffer := linear_payload_buffer linear doff
    have nonempty : 0 < payloadLen packet.toSkBuff := (payload_len_pos_iff packet).mpr (by omega)
    have length : (packet.bytes.drop (packetPayloadStart packet)).length =
        packet.bytes.length - packetPayloadStart packet := List.length_drop
    have outside : payloadSize packet.toSkBuff = 0 ∨ bufferSize ≤ payloadSize packet.toSkBuff := by
      by_cases whole : packetPayloadStart packet + 4 ≤ packet.bytes.length
      · have size := payload_size_inside packet linear (by omega)
        have width : ((packet.bytes.drop (packetPayloadStart packet)).take 4).length = 4 := by
          rw [List.length_take]
          omega
        rw [SizeRefused, width, Nat.sub_self, pow_zero, Nat.mul_one] at refused
        rw [size, buffer]
        exact refused.symm.imp And.right id
      · have size := straddling_payload_size linear (by omega) (by omega)
        have short : (packet.bytes.drop (packetPayloadStart packet)).take 4 =
            packet.bytes.drop (packetPayloadStart packet) :=
          List.take_of_length_le (by omega)
        rw [SizeRefused, short, length] at refused
        rw [buffer] at size
        have exponent : 4 - (packet.bytes.length - packetPayloadStart packet) =
            packetPayloadStart packet + 4 - packet.bytes.length := by omega
        rw [exponent] at refused
        omega
    rw [handle_tcp_payload_refused processMessage nonempty outside]
    exact ⟨rfl, rfl⟩

end LinearPacket

section Outcomes

variable {api : SkbApi} (processMessage : List Byte → Verdict) {skb packet : LocalInSkb}

theorem rejected_outcome
    (rejected : ¬IpSelected (packetMemory skb.bytes) ∨ RuledOut skb skb.headLen)
    (bytes : packet.bytes = skb.bytes) (head : skb.headLen ≤ packet.headLen) :
    hookFunc api processMessage (some packet.toSkBuff) = { events := [], verdict := .accept } := by
  apply hook_func_unselected
  rintro ⟨selected, tcp⟩
  rcases rejected with ip | ruledOut
  · exact ip (by rwa [view_ip_selected_iff, bytes] at selected)
  · exact ruled_out_unselected
      ((ruled_out_congr bytes _).mpr (ruled_out_mono head ruledOut)) tcp

theorem silent_outcome (faithful : api.Faithful) (never : NeverCalls skb)
    (bytes : packet.bytes = skb.bytes)
    (copies : packet.isNonlinear = true → api.skbCopy packet.toSkBuff ≠ none) :
    (hookFunc api processMessage (some packet.toSkBuff)).verdict = .accept ∧
      (hookFunc api processMessage (some packet.toSkBuff)).calls = [] := by
  by_cases selected : IpSelected packet.view ∧ TcpSelected packet.view packet.transportHeader
  · obtain ⟨handed, handedBytes, linear, verdict, calls⟩ :=
      hook_func_handled faithful processMessage copies selected.1 selected.2
    rw [verdict, calls]
    exact never_calls_handled linear processMessage
      ((never_calls_congr (handedBytes.trans bytes)).mpr never)
  · rw [hook_func_unselected api processMessage selected]
    exact ⟨rfl, rfl⟩

/-- With the fields the hook reads in the head, the outcome is the abstract filter's. -/
theorem refined_outcome (faithful : api.Faithful)
    (visible : skb.tcpOffset + 14 ≤ skb.headLen)
    (starts : packetPayloadStart skb ≤ skb.bytes.length)
    (inside : StaysInside (skb.bytes.drop (packetPayloadStart skb)))
    (ip : IpSelected (packetMemory skb.bytes)) (possible : ¬RuledOut skb skb.headLen)
    (bytes : packet.bytes = skb.bytes) (head : skb.headLen ≤ packet.headLen)
    (copies : packet.isNonlinear = true → api.skbCopy packet.toSkBuff ≠ none) :
    (hookFunc api processMessage (some packet.toSkBuff)).verdict =
        inspectedVerdict processMessage (skb.bytes.drop (packetPayloadStart skb)) ∧
      (hookFunc api processMessage (some packet.toSkBuff)).calls =
        inspectedCalls (skb.bytes.drop (packetPayloadStart skb)) := by
  have total := skb.head_le
  have offset := tcp_offset_congr bytes
  have passes : ¬RuledOut packet packet.headLen := by
    rw [ruled_out_congr bytes]
    exact visible_not_ruled_out visible possible _
  obtain ⟨handed, handedBytes, linear, verdict, calls⟩ :=
    hook_func_handled faithful processMessage copies
      ((view_ip_selected_iff packet).mpr (by rw [bytes]; exact ip))
      ((visible_selected (by omega)).mpr passes)
  have same : handed.bytes = skb.bytes := handedBytes.trans bytes
  have buffer : payloadBuffer handed.toSkBuff = packetPayloadStart skb := by
    have handedOffset := tcp_offset_congr same
    rw [linear_payload_buffer linear (by rw [same]; omega), packet_payload_start_congr same]
  have payload : handed.bytes.drop (payloadBuffer handed.toSkBuff) =
      skb.bytes.drop (packetPayloadStart skb) := by
    rw [buffer, same]
  rw [verdict, calls, ← payload]
  exact handle_tcp_payload_refines handed processMessage linear (by rwa [payload])
    (by rw [buffer, same]; exact starts)

end Outcomes

theorem independent_of_determined {skb : LocalInSkb} (determined : StorageDetermined skb) :
    StorageIndependent skb := by
  intro api processMessage held linear faithful heldCopies heldBytes heldHead linearBytes linearHead
  have head : skb.headLen ≤ linear.headLen := by
    rw [linearHead, linearBytes]
    exact skb.head_le
  have copies : linear.isNonlinear = true → api.skbCopy linear.toSkBuff ≠ none := by
    intro nonlinear
    rw [(is_nonlinear_eq_false_iff linear).mpr linearHead] at nonlinear
    cases nonlinear
  by_cases rejected : ¬IpSelected (packetMemory skb.bytes) ∨ RuledOut skb skb.headLen
  · rw [rejected_outcome processMessage rejected heldBytes heldHead.ge,
      rejected_outcome processMessage rejected linearBytes head]
    exact ⟨rfl, rfl⟩
  · rw [not_or, not_not] at rejected
    rcases determined with ip | ruledOut | never | ⟨visible, starts, inside⟩
    · exact absurd rejected.1 ip
    · exact absurd ruledOut rejected.2
    · obtain ⟨heldVerdict, heldCalls⟩ :=
        silent_outcome processMessage faithful never heldBytes fun _ => heldCopies
      obtain ⟨linearVerdict, linearCalls⟩ :=
        silent_outcome processMessage faithful never linearBytes copies
      rw [heldVerdict, heldCalls, linearVerdict, linearCalls]
      exact ⟨rfl, rfl⟩
    · obtain ⟨heldVerdict, heldCalls⟩ := refined_outcome processMessage faithful visible starts
        inside rejected.1 rejected.2 heldBytes heldHead.ge fun _ => heldCopies
      obtain ⟨linearVerdict, linearCalls⟩ := refined_outcome processMessage faithful visible starts
        inside rejected.1 rejected.2 linearBytes head copies
      rw [heldVerdict, heldCalls, linearVerdict, linearCalls]
      exact ⟨rfl, rfl⟩

section Probes

variable (skb : LocalInSkb)

/-- Where the payload starts when a missing data offset is read as 15. -/
def probeStart : Nat :=
  if skb.tcpOffset + 12 < skb.bytes.length then packetPayloadStart skb else skb.tcpOffset + 60

/-- Memory that completes a truncated header to a selected one and continues
the payload with zeroes up to the last size byte and with `fill` from there. -/
def probe (fill : Byte) : Memory := fun offset =>
  if offset = skb.tcpOffset + 2 then 0xEA
  else if offset = skb.tcpOffset + 3 then 0x61
  else if offset = skb.tcpOffset + 12 then 0xF0
  else if offset = skb.tcpOffset + 13 then 8
  else if offset < probeStart skb + 3 then 0
  else fill

def unpushedProbe (fill : Byte) : Memory := fun offset =>
  if offset = skb.tcpOffset + 13 then 0 else probe skb fill offset

variable {skb}

theorem probe_start_ne_length (calls : ¬NeverCalls skb) : probeStart skb ≠ skb.bytes.length := by
  unfold probeStart
  split_ifs with doff
  · intro exactEnd
    exact calls ⟨doff, Or.inl exactEnd⟩
  · omega

/-- A header cut right behind the data offset byte: that byte is at least `0x30`
when it is also the first payload byte, so no size field can start there. -/
theorem cut_header_refused (doff : packetPayloadStart skb = skb.tcpOffset + 12)
    (cut : skb.bytes.length = skb.tcpOffset + 13) : NeverCalls skb := by
  refine ⟨by omega, Or.inr ⟨by omega, Or.inl ?_⟩⟩
  have bound : skb.tcpOffset + 12 < skb.bytes.length := by omega
  have byte : packetMemory skb.bytes (skb.tcpOffset + 12) = skb.bytes[skb.tcpOffset + 12] :=
    overlay_inside _ bound
  have payload : skb.bytes.drop (packetPayloadStart skb) = [skb.bytes[skb.tcpOffset + 12]] := by
    rw [doff, List.drop_eq_getElem_cons bound, List.drop_eq_nil_of_le (by omega)]
  have nibble : (packetMemory skb.bytes (skb.tcpOffset + 12)).val / 16 = 3 := by
    rw [packetPayloadStart, tcpDoff] at doff
    omega
  rw [byte] at nibble
  rw [payload]
  simp only [List.take_succ_cons, List.take_nil, decodeBE, List.length_cons, List.length_nil,
    bufferSize]
  omega

theorem probe_size_byte (calls : ¬NeverCalls skb) (fill : Byte) {offset : Nat}
    (behind : skb.bytes.length ≤ offset) (lower : probeStart skb ≤ offset)
    (upper : offset < probeStart skb + 4) :
    probe skb fill offset = if offset < probeStart skb + 3 then 0 else fill := by
  have reserved : offset ≠ skb.tcpOffset + 2 ∧ offset ≠ skb.tcpOffset + 3 ∧
      offset ≠ skb.tcpOffset + 12 ∧ offset ≠ skb.tcpOffset + 13 := by
    by_cases doff : skb.tcpOffset + 12 < skb.bytes.length
    · refine ⟨by omega, by omega, by omega, ?_⟩
      intro flag
      rw [probeStart, if_pos doff] at lower upper
      have start : packetPayloadStart skb = skb.tcpOffset + 12 ∨
          packetPayloadStart skb = skb.bytes.length := by
        unfold packetPayloadStart at lower upper ⊢
        omega
      rcases start with start | start
      · exact calls (cut_header_refused start (by omega))
      · exact calls ⟨doff, Or.inl start⟩
    · rw [probeStart, if_neg doff] at lower
      omega
  rw [probe, if_neg reserved.1, if_neg reserved.2.1, if_neg reserved.2.2.1,
    if_neg reserved.2.2.2]

theorem linear_probe_buffer (skb : LocalInSkb) (fill : Byte) :
    payloadBuffer (linearOver skb (probe skb fill)).toSkBuff = probeStart skb := by
  by_cases doff : skb.tcpOffset + 12 < skb.bytes.length
  · have buffer : payloadBuffer (linearOver skb (probe skb fill)).toSkBuff =
        packetPayloadStart (linearOver skb (probe skb fill)) := linear_payload_buffer rfl doff
    rw [buffer, probeStart, if_pos doff]
    rfl
  · have byte : (linearOver skb (probe skb fill)).view (skb.tcpOffset + 12) = 0xF0 := by
      rw [view_of_linear rfl]
      refine (overlay_outside _ (Nat.not_lt.mp doff)).trans ?_
      change probe skb fill (skb.tcpOffset + 12) = 0xF0
      simp [probe]
    rw [payload_buffer_eq]
    change skb.tcpOffset + tcpDoff (linearOver skb (probe skb fill)).view skb.tcpOffset * 4 = _
    rw [tcpDoff, byte, probeStart, if_neg doff]
    rfl

/-- The part of the declared size the packet fixes when its field is cut. -/
def cutSize (skb : LocalInSkb) : Nat :=
  decodeBE (skb.bytes.drop (probeStart skb)) * 256 ^ (probeStart skb + 4 - skb.bytes.length)

theorem cut_size_behind (behind : skb.bytes.length ≤ probeStart skb) : cutSize skb = 0 := by
  rw [cutSize, List.drop_eq_nil_of_le behind, decodeBE, Nat.zero_mul]

/-- The rest of the field is zero up to its last byte. -/
theorem probe_size_tail (calls : ¬NeverCalls skb) (fill : Byte) {start : Nat}
    (behind : skb.bytes.length ≤ start) (lower : probeStart skb ≤ start)
    (upper : start < probeStart skb + 4) :
    decodeBE (load (probe skb fill) start (probeStart skb + 4 - start)) = fill.val := by
  have split : probeStart skb + 4 - start = (probeStart skb + 3 - start) + 1 := by omega
  rw [split, decode_be_load_zeros]
  · have last : start + (probeStart skb + 3 - start) = probeStart skb + 3 := by omega
    rw [last, probe_size_byte calls fill (by omega) (by omega) (by omega), if_neg (by omega)]
  · intro index bound
    rw [probe_size_byte calls fill (by omega) (by omega) (by omega), if_pos (by omega)]

theorem probe_cut_size (calls : ¬NeverCalls skb) (fill : Byte)
    (cut : skb.bytes.length < probeStart skb + 4) :
    payloadSize (linearOver skb (probe skb fill)).toSkBuff = cutSize skb + fill.val := by
  have buffer := linear_probe_buffer skb fill
  by_cases starts : probeStart skb ≤ skb.bytes.length
  · have size : payloadSize (linearOver skb (probe skb fill)).toSkBuff =
        decodeBE (skb.bytes.drop (payloadBuffer (linearOver skb (probe skb fill)).toSkBuff)) *
            256 ^
              (payloadBuffer (linearOver skb (probe skb fill)).toSkBuff + 4 - skb.bytes.length) +
          decodeBE (load (probe skb fill) skb.bytes.length
            (payloadBuffer (linearOver skb (probe skb fill)).toSkBuff + 4 - skb.bytes.length)) :=
      straddling_payload_size rfl (buffer.trans_le starts) (by rw [buffer]; exact cut.le)
    rw [size, buffer, probe_size_tail calls fill le_rfl starts cut, cutSize]
  · have size : payloadSize (linearOver skb (probe skb fill)).toSkBuff =
        decodeBE (load (probe skb fill) (probeStart skb)
          (probeStart skb + 4 - probeStart skb)) := by
      rw [payloadSize, declaredSize, buffer, view_of_linear rfl, Nat.add_sub_cancel_left]
      exact congrArg decodeBE (load_overlay_outside _ 4 (by change skb.bytes.length ≤ _; omega))
    rw [size, probe_size_tail calls fill (by omega) le_rfl (by omega), cut_size_behind (by omega),
      Nat.zero_add]

theorem probe_whole_size (fill : Byte) (whole : probeStart skb + 4 ≤ skb.bytes.length) :
    payloadSize (linearOver skb (probe skb fill)).toSkBuff =
      decodeBE ((skb.bytes.drop (probeStart skb)).take 4) := by
  have buffer := linear_probe_buffer skb fill
  have size := payload_size_inside (linearOver skb (probe skb fill)) rfl
    (by rw [buffer]; exact whole)
  rw [size, buffer]
  rfl

theorem probe_size_not_refused (calls : ¬NeverCalls skb)
    (starts : probeStart skb < skb.bytes.length) :
    ¬SizeRefused (skb.bytes.drop (probeStart skb)) := by
  intro refused
  by_cases doff : skb.tcpOffset + 12 < skb.bytes.length
  · rw [probeStart, if_pos doff] at starts refused
    exact calls ⟨doff, Or.inr ⟨starts, refused⟩⟩
  · rw [probeStart, if_neg doff] at starts
    omega

/-- There is room for a last byte below the next multiple of 256. -/
theorem cut_size_bound (calls : ¬NeverCalls skb) (starts : probeStart skb < skb.bytes.length)
    (cut : skb.bytes.length < probeStart skb + 4) :
    256 ∣ cutSize skb ∧ cutSize skb < bufferSize := by
  have passes := probe_size_not_refused calls starts
  have length : (skb.bytes.drop (probeStart skb)).length = skb.bytes.length - probeStart skb :=
    List.length_drop
  have short : (skb.bytes.drop (probeStart skb)).take 4 = skb.bytes.drop (probeStart skb) :=
    List.take_of_length_le (by omega)
  have exponent : 4 - (skb.bytes.length - probeStart skb) =
      probeStart skb + 4 - skb.bytes.length := by omega
  have power : probeStart skb + 4 - skb.bytes.length =
      (probeStart skb + 3 - skb.bytes.length) + 1 := by omega
  rw [SizeRefused, short, length, exponent] at passes
  constructor
  · rw [cutSize, power, pow_succ, ← Nat.mul_assoc]
    exact Nat.dvd_mul_left _ _
  · unfold cutSize
    omega

/-- A small nonzero `fill` makes every packet that can call the rule call it. -/
theorem probe_size_accepted (calls : ¬NeverCalls skb) {fill : Byte} (low : 1 ≤ fill.val)
    (high : fill.val ≤ 2) :
    1 ≤ payloadSize (linearOver skb (probe skb fill)).toSkBuff ∧
      payloadSize (linearOver skb (probe skb fill)).toSkBuff < bufferSize := by
  have apart := probe_start_ne_length calls
  by_cases whole : probeStart skb + 4 ≤ skb.bytes.length
  · have length : (skb.bytes.drop (probeStart skb)).length = skb.bytes.length - probeStart skb :=
      List.length_drop
    have width : ((skb.bytes.drop (probeStart skb)).take 4).length = 4 := by
      rw [List.length_take]
      omega
    have passes := probe_size_not_refused calls (by omega)
    rw [SizeRefused, width, Nat.sub_self, pow_zero, Nat.mul_one] at passes
    rw [probe_whole_size fill whole]
    omega
  · rw [probe_cut_size calls fill (by omega)]
    by_cases starts : probeStart skb < skb.bytes.length
    · obtain ⟨multiple, bounded⟩ := cut_size_bound calls starts (by omega)
      simp only [bufferSize] at bounded ⊢
      omega
    · rw [cut_size_behind (Nat.le_of_not_lt starts)]
      simp only [bufferSize]
      omega

theorem probe_handled (processMessage : List Byte → Verdict) (calls : ¬NeverCalls skb)
    {fill : Byte} (low : 1 ≤ fill.val) (high : fill.val ≤ 2) :
    (handleTcpPayload processMessage (linearOver skb (probe skb fill)).toSkBuff).calls =
      [(load (linearOver skb (probe skb fill)).view (probeStart skb + 4)
          (payloadSize (linearOver skb (probe skb fill)).toSkBuff),
        (payloadSize (linearOver skb (probe skb fill)).toSkBuff : Int))] := by
  have buffer := linear_probe_buffer skb fill
  obtain ⟨positive, small⟩ := probe_size_accepted calls low high
  have nonempty : 0 < payloadLen (linearOver skb (probe skb fill)).toSkBuff := by
    rw [payload_len_pos_iff, buffer]
    exact (probe_start_ne_length calls).symm
  rw [handle_tcp_payload_message processMessage nonempty positive small, buffer]
  rfl

theorem handed_over (outside : Memory) (ip : IpSelected (packetMemory skb.bytes))
    (tcp : TcpSelected (heldOver skb outside).view skb.transportHeader) :
    handedSkb (copyingApi outside) (heldOver skb outside).toSkBuff =
      some (linearOver skb outside).toSkBuff := by
  have selected : IpSelected (heldOver skb outside).view :=
    (view_ip_selected_iff (heldOver skb outside)).mpr ip
  rw [handedSkb, if_pos ⟨selected, tcp⟩]
  cases linear : (heldOver skb outside).isNonlinear with
  | false =>
      have head : skb.headLen = skb.bytes.length :=
        (is_nonlinear_eq_false_iff (heldOver skb outside)).mp linear
      simp [heldOver, linearOver, reheld, head]
  | true => simp [copyingApi, heldOver, linearOver, reheld]

theorem probe_selected (fill : Byte) (possible : ¬RuledOut skb skb.headLen) :
    TcpSelected (heldOver skb (probe skb fill)).view skb.transportHeader := by
  have offset : skb.transportHeader = skb.tcpOffset := skb.transport_eq
  have byte (index : Nat) : (heldOver skb (probe skb fill)).view index =
      if index < skb.headLen then packetMemory skb.bytes index else probe skb fill index := by
    split_ifs with inside
    · exact view_inside_head (heldOver skb (probe skb fill)).head_le inside
    · apply overlay_outside
      change (skb.bytes.take skb.headLen).length ≤ index
      rw [List.length_take]
      omega
  simp only [RuledOut, not_or, not_and, not_not] at possible
  rw [tcp_selected_bytes, offset, tcpPsh, byte, byte, byte]
  refine ⟨?_, ?_, ?_⟩
  · split_ifs with inside
    · exact possible.1 inside
    · simp [probe]
  · split_ifs with inside
    · exact possible.2.1 inside
    · simp [probe]
  · split_ifs with inside
    · exact possible.2.2 inside
    · have flag : probe skb fill (skb.tcpOffset + 13) = 8 := by simp [probe]
      rw [flag]
      decide

theorem unpushed_probe_unselected (fill : Byte) (hidden : skb.headLen < skb.tcpOffset + 14) :
    ¬TcpSelected (heldOver skb (unpushedProbe skb fill)).view skb.transportHeader := by
  have offset : skb.transportHeader = skb.tcpOffset := skb.transport_eq
  have flag : (heldOver skb (unpushedProbe skb fill)).view (skb.tcpOffset + 13) = 0 := by
    refine (overlay_outside _ ?_).trans ?_
    · change (skb.bytes.take skb.headLen).length ≤ _
      rw [List.length_take]
      omega
    · change unpushedProbe skb fill (skb.tcpOffset + 13) = 0
      simp [unpushedProbe]
  rw [tcp_selected_bytes, offset, tcpPsh, flag]
  simp

theorem probe_hook_calls (processMessage : List Byte → Verdict) (fill : Byte)
    (ip : IpSelected (packetMemory skb.bytes)) (possible : ¬RuledOut skb skb.headLen) :
    (hookFunc (copyingApi (probe skb fill)) processMessage
        (some (heldOver skb (probe skb fill)).toSkBuff)).calls =
      (handleTcpPayload processMessage (linearOver skb (probe skb fill)).toSkBuff).calls := by
  obtain ⟨earlier, quiet, run⟩ := hook_func_of_handed processMessage (copying_api_faithful _)
    (handed_over (probe skb fill) ip (probe_selected fill possible))
  rw [run, after_calls quiet.calls_eq_nil]

theorem independent_probe_calls (independent : StorageIndependent skb)
    (processMessage : List Byte → Verdict) (copies outside reference : Memory) :
    (hookFunc (copyingApi copies) processMessage (some (heldOver skb outside).toSkBuff)).calls =
      (hookFunc (copyingApi copies) processMessage
        (some (linearOver skb reference).toSkBuff)).calls :=
  (independent (copyingApi copies) processMessage (heldOver skb outside) (linearOver skb reference)
    (copying_api_faithful _) (by simp [copyingApi]) rfl rfl rfl rfl).2

/-- With a hidden flag byte, memory decides whether the rule is called at all. -/
theorem header_visible_of_independent (independent : StorageIndependent skb)
    (ip : IpSelected (packetMemory skb.bytes)) (possible : ¬RuledOut skb skb.headLen)
    (calls : ¬NeverCalls skb) : skb.tcpOffset + 14 ≤ skb.headLen := by
  by_contra hidden
  have pushed := independent_probe_calls independent (fun _ => .accept) (probe skb 1)
    (probe skb 1) 0
  have unpushed := independent_probe_calls independent (fun _ => .accept) (probe skb 1)
    (unpushedProbe skb 1) 0
  rw [← unpushed, probe_hook_calls _ 1 ip possible, probe_handled _ calls le_rfl (by decide),
    hook_func_unselected _ _ fun selected =>
      unpushed_probe_unselected 1 (by omega) selected.2] at pushed
  cases pushed

/-- With a visible header, two fillings of the memory behind the packet call the
rule with different messages unless the inspection stays inside. -/
theorem inside_of_independent (independent : StorageIndependent skb)
    (ip : IpSelected (packetMemory skb.bytes)) (possible : ¬RuledOut skb skb.headLen)
    (calls : ¬NeverCalls skb) (visible : skb.tcpOffset + 14 ≤ skb.headLen) :
    packetPayloadStart skb ≤ skb.bytes.length ∧
      StaysInside (skb.bytes.drop (packetPayloadStart skb)) := by
  have total := skb.head_le
  have start : probeStart skb = packetPayloadStart skb := if_pos (by omega)
  have length : (skb.bytes.drop (packetPayloadStart skb)).length =
      skb.bytes.length - packetPayloadStart skb := List.length_drop
  have linearSelected : TcpSelected (linearOver skb (probe skb 2)).view skb.transportHeader :=
    (@visible_selected (linearOver skb (probe skb 2)) (visible.trans total)).mpr
      (visible_not_ruled_out visible possible _)
  have linearIp : IpSelected (linearOver skb (probe skb 2)).view :=
    (view_ip_selected_iff (linearOver skb (probe skb 2))).mpr ip
  have linear : (linearOver skb (probe skb 2)).isNonlinear = false :=
    (is_nonlinear_eq_false_iff (linearOver skb (probe skb 2))).mpr rfl
  have same := independent_probe_calls independent (fun _ => .accept) (probe skb 1) (probe skb 1)
    (probe skb 2)
  rw [probe_hook_calls _ 1 ip possible, hook_func_linear _ _ linearIp linearSelected linear,
    probe_handled _ calls le_rfl (by decide), probe_handled _ calls (by decide) le_rfl] at same
  simp only [List.cons.injEq, Prod.mk.injEq, and_true, Nat.cast_inj] at same
  obtain ⟨messages, sizes⟩ := same
  by_cases whole : probeStart skb + 4 ≤ skb.bytes.length
  · refine ⟨by omega, Or.inr ⟨by omega, ?_⟩⟩
    by_contra leaves
    have size := probe_whole_size 1 whole
    rw [start] at size
    rw [sizes, load_eq_iff] at messages
    -- The last byte of the message lies behind the packet.
    have last := messages (probeStart skb + 4 +
      payloadSize (linearOver skb (probe skb 2)).toSkBuff - 1) (by omega) (by omega)
    rw [view_of_linear rfl, view_of_linear rfl] at last
    have behind : skb.bytes.length ≤ probeStart skb + 4 +
        payloadSize (linearOver skb (probe skb 2)).toSkBuff - 1 := by omega
    have fills (fill : Byte) : overlay (linearOver skb (probe skb fill)).bytes
        (linearOver skb (probe skb fill)).outside (probeStart skb + 4 +
          payloadSize (linearOver skb (probe skb 2)).toSkBuff - 1) = fill := by
      refine (overlay_outside _ behind).trans ?_
      change probe skb fill _ = fill
      rw [probe, if_neg (by omega), if_neg (by omega), if_neg (by omega), if_neg (by omega),
        if_neg (by omega)]
    rw [fills 1, fills 2] at last
    exact absurd last (by decide)
  · rw [probe_cut_size calls 1 (by omega), probe_cut_size calls 2 (by omega)] at sizes
    exact absurd (Nat.add_left_cancel sizes) (by decide)

end Probes

/-- The outcome is the same for every way of holding the packet exactly when no
byte outside the linear head or behind the packet can decide it. -/
theorem storage_independent_iff (skb : LocalInSkb) :
    StorageIndependent skb ↔ StorageDetermined skb := by
  refine ⟨fun independent => ?_, independent_of_determined⟩
  by_cases ip : IpSelected (packetMemory skb.bytes)
  · by_cases possible : RuledOut skb skb.headLen
    · exact Or.inr (Or.inl possible)
    · by_cases calls : NeverCalls skb
      · exact Or.inr (Or.inr (Or.inl calls))
      · have visible := header_visible_of_independent independent ip possible calls
        exact Or.inr (Or.inr (Or.inr
          ⟨visible, inside_of_independent independent ip possible calls visible⟩))
  · exact Or.inl ip

/-- A complete frame whose TCP header lies in a page fragment: with zeroes
behind the linear head the port does not match and a rule that drops everything
is never consulted, while the linear packet is dropped. -/
theorem fragmented_header_escapes :
    let packet := (linearSegment true (frame [8, 150, 1]) (by decide) fun _ => 0).toLocalInSkb
    let held := reheld packet 20 (by decide) (by decide) fun _ => 0
    (hookFunc (copyingApi fun _ => 0) (fun _ => .drop) (some held.toSkBuff)).verdict = .accept ∧
      (hookFunc (copyingApi fun _ => 0) (fun _ => .drop) (some packet.toSkBuff)).verdict =
        .drop := by
  intro packet held
  constructor
  · have hidden : ¬TcpSelected held.view held.transportHeader := by
      rw [tcp_selected_bytes]
      rintro ⟨first, _⟩
      exact absurd first (by decide)
    rw [hook_func_unselected _ _ fun selected => hidden selected.2]
  · have refined := hook_func_refines (copying_api_faithful fun _ => 0) (fun _ => .drop)
      (linearSegment true (frame [8, 150, 1]) (by decide) fun _ => 0) (linear_segment_psh _ _)
      (fun _ => by simp [copyingApi])
      (by rw [linear_segment_payload]; exact frame_stays_inside (by decide) [])
    exact refined.1.trans (by rw [linear_segment_payload]; decide)

end ProtobufLkm.NetfilterStorage
