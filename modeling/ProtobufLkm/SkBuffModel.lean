import ProtobufLkm.ByteMemory

/-!
# Socket buffers and the header fields the hook reads

An `sk_buff` holds one IPv4 packet: its first `headLen` bytes lie in the linear
head, the rest in page fragments. The hook dereferences plain pointers into the
head, so it sees the head's bytes and, past them, whatever the kernel keeps
there. Header fields are therefore functions of a byte memory and not of the
packet alone. The host is little-endian, as the bit-field layout of `iphdr` and
`tcphdr` below assumes.
-/

namespace ProtobufLkm.SkBuffModel

open ByteCodec ByteMemory

set_option autoImplicit false

def ipprotoTcp : Nat := 6

def inaddrLoopback : Nat := 0x7f000001

/-- `iphdr.ihl`, the low bit-field of the first byte. -/
def ipIhl (memory : Memory) : Nat := (memory 0).val % 16

/-- `iphdr.tot_len` as loaded, still in network order. -/
def ipTotLen (memory : Memory) : Nat := decodeLE (load memory 2 2)

def ipProtocol (memory : Memory) : Nat := (memory 9).val

/-- `iphdr.daddr` as loaded, still in network order. -/
def ipDaddr (memory : Memory) : Nat := decodeLE (load memory 16 4)

/-- `tcphdr.dest` as loaded, still in network order. -/
def tcpDest (memory : Memory) (tcp : Nat) : Nat := decodeLE (load memory (tcp + 2) 2)

/-- `tcphdr.doff`, the high bit-field of byte 12. -/
def tcpDoff (memory : Memory) (tcp : Nat) : Nat := (memory (tcp + 12)).val / 16

/-- `tcphdr.psh`, bit 3 of byte 13. -/
def tcpPsh (memory : Memory) (tcp : Nat) : Nat := (memory (tcp + 13)).val / 8 % 2

/-- The fields of `struct sk_buff` the hook depends on. Offsets count from the
network header; `outside` is what a pointer into the head reads past it. -/
structure SkBuff where
  address : Nat
  bytes : List Byte
  headLen : Nat
  transportHeader : Nat
  outside : Memory

/-- Memory as the hook reads it through `ip_hdr`, `tcp_hdr` and pointers derived from them. -/
def SkBuff.view (skb : SkBuff) : Memory := overlay (skb.bytes.take skb.headLen) skb.outside

def SkBuff.isNonlinear (skb : SkBuff) : Bool := skb.headLen < skb.bytes.length

/-- The packet alone, over zeroes, for stating what its header fields are. -/
def packetMemory (bytes : List Byte) : Memory := overlay bytes fun _ => 0

/-- What IPv4 input guarantees before the `NF_INET_LOCAL_IN` hooks run: the
packet is trimmed to `tot_len`, its IP header is complete and in the linear
head, and the transport header follows it. Nothing is known of the TCP header. -/
structure LocalInSkb extends SkBuff where
  head_le : headLen ≤ bytes.length
  ihl_ge : 5 ≤ ipIhl (packetMemory bytes)
  ip_header_in_head : ipIhl (packetMemory bytes) * 4 ≤ headLen
  tot_len_eq : decodeBE ((bytes.drop 2).take 2) = bytes.length
  transport_eq : transportHeader = ipIhl (packetMemory bytes) * 4

theorem view_inside_head {skb : SkBuff} (head : skb.headLen ≤ skb.bytes.length) {offset : Nat}
    (inside : offset < skb.headLen) : skb.view offset = packetMemory skb.bytes offset := by
  rw [SkBuff.view, packetMemory, overlay_inside _ (by simp only [List.length_take]; omega),
    overlay_inside _ (by omega), List.getElem_take]

theorem load_view_inside_head {skb : SkBuff} (head : skb.headLen ≤ skb.bytes.length)
    {start count : Nat} (inside : start + count ≤ skb.headLen) :
    load skb.view start count = (skb.bytes.drop start).take count := by
  rw [← load_overlay_inside (fun _ => 0) (by omega : start + count ≤ skb.bytes.length)]
  exact load_congr fun offset _ upper => view_inside_head head (by omega)

theorem view_of_linear {skb : SkBuff} (linear : skb.headLen = skb.bytes.length) :
    skb.view = overlay skb.bytes skb.outside := by
  rw [SkBuff.view, linear, List.take_length]

theorem is_nonlinear_eq_false_iff (skb : LocalInSkb) :
    skb.isNonlinear = false ↔ skb.headLen = skb.bytes.length := by
  have head := skb.head_le
  simp only [SkBuff.isNonlinear, decide_eq_false_iff_not]
  omega

namespace LocalInSkb

variable (skb : LocalInSkb)

theorem twenty_le_head : 20 ≤ skb.headLen := by
  have ihl := skb.ihl_ge
  have head := skb.ip_header_in_head
  omega

def tcpOffset : Nat := ipIhl (packetMemory skb.bytes) * 4

theorem tcp_offset_bounds : 20 ≤ skb.tcpOffset ∧ skb.tcpOffset ≤ 60 ∧
    skb.tcpOffset ≤ skb.headLen := by
  have ihl := skb.ihl_ge
  have head := skb.ip_header_in_head
  have field : ipIhl (packetMemory skb.bytes) < 16 := Nat.mod_lt _ (by decide)
  unfold tcpOffset
  omega

theorem tot_len_lt : skb.bytes.length < 2 ^ 16 := by
  have bounded := decode_be_lt ((skb.bytes.drop 2).take 2)
  have width : ((skb.bytes.drop 2).take 2).length ≤ 2 := List.length_take_le _ _
  have power : 256 ^ ((skb.bytes.drop 2).take 2).length ≤ 256 ^ 2 :=
    Nat.pow_le_pow_right (by decide) width
  rw [skb.tot_len_eq] at bounded
  omega

theorem view_ihl : ipIhl skb.view = ipIhl (packetMemory skb.bytes) := by
  have head := skb.twenty_le_head
  rw [ipIhl, ipIhl, view_inside_head skb.head_le (by omega)]

theorem view_tot_len : swap16 (ipTotLen skb.view) = skb.bytes.length := by
  have head := skb.twenty_le_head
  rw [ipTotLen, swap16_decode_le _ (load_length _ _ _),
    load_view_inside_head skb.head_le (by omega), skb.tot_len_eq]

theorem view_protocol : ipProtocol skb.view = ipProtocol (packetMemory skb.bytes) := by
  have head := skb.twenty_le_head
  rw [ipProtocol, ipProtocol, view_inside_head skb.head_le (by omega)]

end LocalInSkb

/-- `skb_copy` and `skb_linearize`, kept abstract. `skb_linearize` returns its
result code and the buffer as it leaves it. -/
structure SkbApi where
  skbCopy : SkBuff → Option SkBuff
  skbLinearize : SkBuff → Int × SkBuff

/-- What the hook relies on: a copy is linear and holds the same packet with
the same header offsets, and linearizing a linear buffer changes nothing. -/
structure SkbApi.Faithful (api : SkbApi) : Prop where
  copy_bytes : ∀ skb copied, api.skbCopy skb = some copied → copied.bytes = skb.bytes
  copy_linear : ∀ skb copied, api.skbCopy skb = some copied → copied.headLen = copied.bytes.length
  copy_transport : ∀ skb copied, api.skbCopy skb = some copied →
    copied.transportHeader = skb.transportHeader
  linearize_linear : ∀ skb : SkBuff, skb.headLen = skb.bytes.length →
    api.skbLinearize skb = (0, skb)

def copyingApi (outside : Memory) : SkbApi where
  skbCopy skb := some { skb with headLen := skb.bytes.length, outside := outside }
  skbLinearize skb := (0, skb)

theorem copying_api_faithful (outside : Memory) : (copyingApi outside).Faithful := by
  refine ⟨?_, ?_, ?_, fun skb _ => rfl⟩ <;> rintro skb copied ⟨⟩ <;> rfl

/-- The copy of a buffer from IPv4 input has passed the same validation. -/
def SkbApi.Faithful.copied {api : SkbApi} (faithful : api.Faithful) (skb : LocalInSkb)
    {copied : SkBuff} (success : api.skbCopy skb.toSkBuff = some copied) : LocalInSkb where
  toSkBuff := copied
  head_le := (faithful.copy_linear _ _ success).le
  ihl_ge := by rw [faithful.copy_bytes _ _ success]; exact skb.ihl_ge
  ip_header_in_head := by
    rw [faithful.copy_linear _ _ success, faithful.copy_bytes _ _ success]
    exact skb.ip_header_in_head.trans skb.head_le
  tot_len_eq := by rw [faithful.copy_bytes _ _ success]; exact skb.tot_len_eq
  transport_eq := by
    rw [faithful.copy_transport _ _ success, faithful.copy_bytes _ _ success]
    exact skb.transport_eq

end ProtobufLkm.SkBuffModel
