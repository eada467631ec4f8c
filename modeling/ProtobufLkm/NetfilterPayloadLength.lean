import ProtobufLkm.NetfilterPacketBounds

/-!
# The payload length in 32-bit arithmetic

`handle_tcp_payload` subtracts both header lengths from the packet length as
`int` and stores the difference in a `uint32_t`. At this hook the TCP data
offset has not been validated, so the difference can be negative, and a header
field below five is subtracted like any other.
-/

namespace ProtobufLkm.NetfilterPayloadLength

open ByteCodec ByteMemory SkBuffModel NetfilterHookModel TcpSegmentModel NetfilterPacketBounds

set_option autoImplicit false

section Packet

variable (packet : LocalInSkb)

/-- `tcp->doff` as `handle_tcp_payload` reads it. -/
def dataOffset : Nat := tcpDoff packet.view packet.tcpOffset

/-- A well-formed TCP header and at least one byte behind it. -/
def HasPayload : Prop := 5 ≤ dataOffset packet ∧ 0 < payloadSpan packet

instance : Decidable (HasPayload packet) := inferInstanceAs (Decidable (_ ∧ _))

def truePayloadLen : Int := if HasPayload packet then payloadSpan packet else 0

/-- `payload_len` is the true length, the test on it selects the packets with a
payload, and for these `buffer` is the address of the first payload byte. -/
structure PayloadLenExact : Prop where
  length_eq : (payloadLen packet.toSkBuff : Int) = truePayloadLen packet
  test_iff : 0 < payloadLen packet.toSkBuff ↔ HasPayload packet
  buffer_eq : 0 < payloadLen packet.toSkBuff →
    payloadBuffer packet.toSkBuff = payloadStart packet ∧
      payloadStart packet < packet.bytes.length

theorem payload_start_le : payloadStart packet ≤ 120 := by
  have bounded := payload_buffer_le packet
  rwa [payload_buffer_eq] at bounded

theorem payload_len_inside (inside : payloadStart packet ≤ packet.bytes.length) :
    (payloadLen packet.toSkBuff : Int) = payloadSpan packet := by
  have total := packet.tot_len_lt
  rw [payload_len_eq, payload_buffer_eq]
  exact to_uint32_of_nonneg (by unfold payloadStart at inside; omega) (by omega)

/-- Headers longer than the packet give a length near `2 ^ 32`. -/
theorem payload_len_outside (outside : packet.bytes.length < payloadStart packet) :
    (payloadLen packet.toSkBuff : Int) = 2 ^ 32 + payloadSpan packet := by
  have bounded := payload_start_le packet
  rw [payload_len_eq, payload_buffer_eq]
  unfold payloadStart at outside bounded
  exact to_uint32_of_negative (by omega) (by omega)

/-- The computed length is exact when the headers end within the packet and, if
bytes follow them, the data offset is a possible one. -/
theorem payload_len_exact_iff :
    PayloadLenExact packet ↔ payloadStart packet ≤ packet.bytes.length ∧
      (5 ≤ dataOffset packet ∨ payloadStart packet = packet.bytes.length) := by
  have bounded := payload_start_le packet
  have span : payloadSpan packet = (packet.bytes.length : Int) - payloadStart packet := rfl
  constructor
  · intro exact
    have length := exact.length_eq
    by_cases inside : payloadStart packet ≤ packet.bytes.length
    · rw [payload_len_inside packet inside] at length
      refine ⟨inside, ?_⟩
      by_contra malformed
      rw [truePayloadLen, if_neg fun payload => malformed (Or.inl payload.1)] at length
      omega
    · rw [payload_len_outside packet (Nat.lt_of_not_le inside), truePayloadLen,
        if_neg fun payload => by have room := payload.2; omega] at length
      omega
  · rintro ⟨inside, wellFormed⟩
    have length := payload_len_inside packet inside
    have test : 0 < payloadLen packet.toSkBuff ↔ HasPayload packet := by
      unfold HasPayload
      omega
    constructor
    · by_cases payload : HasPayload packet
      · rw [truePayloadLen, if_pos payload, length]
      · rw [truePayloadLen, if_neg payload]
        have zero := mt test.mp payload
        omega
    · exact test
    · intro positive
      exact ⟨payload_buffer_eq packet, by omega⟩

end Packet

/-- A pushed packet of 42 bytes to port 60001 whose TCP header claims 60. -/
def longHeaderPacket : LocalInSkb where
  address := 0
  bytes := [0x45, 0, 0, 42, 0, 0, 0, 0, 64, 6, 0, 0, 127, 0, 0, 1, 127, 0, 0, 1,
    0x30, 0x39, 0xEA, 0x61, 0, 0, 0, 0, 0, 0, 0, 0, 0xF0, 0x18, 0xFF, 0xFF, 0, 0, 0, 0, 8, 1]
  headLen := 42
  transportHeader := 20
  outside := fun _ => 0
  head_le := by decide
  ihl_ge := by decide
  ip_header_in_head := by decide
  tot_len_eq := by decide
  transport_eq := by decide

theorem long_header_wraps_length :
    handedSkb (copyingApi fun _ => 0) longHeaderPacket.toSkBuff =
        some longHeaderPacket.toSkBuff ∧
      payloadLen longHeaderPacket.toSkBuff = 2 ^ 32 - 38 ∧
      ¬PayloadLenExact longHeaderPacket := by
  have selected : IpSelected longHeaderPacket.view ∧
      TcpSelected longHeaderPacket.view longHeaderPacket.transportHeader := by decide
  constructor
  · rw [handedSkb, if_pos selected, if_neg (by decide)]
  · rw [payload_len_exact_iff]
    decide

end ProtobufLkm.NetfilterPayloadLength
