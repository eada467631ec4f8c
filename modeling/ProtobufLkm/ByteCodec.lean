import Mathlib.Data.List.Basic
import Mathlib.Tactic.Ring
import Mathlib.Tactic.Linarith

/-!
Fixed-width byte codecs and the C integer conversions around them. Nothing in
this module knows about packets: it relates the value a little-endian host
loads from memory, the value the network order assigns to the same bytes, and
the two's complement reading of a 32-bit word.
-/

namespace ProtobufLkm.ByteCodec

set_option autoImplicit false

abbrev Byte := Fin 256

-- Named, so that a byte numeral is the same term in every module.
instance byte_ne_zero : NeZero 256 := ⟨by decide⟩

/-- Network-order value of a byte string, most significant byte first. -/
def decodeBE : List Byte → Nat
  | [] => 0
  | byte :: rest => byte.val * 256 ^ rest.length + decodeBE rest

/-- The value a little-endian host loads from the same bytes. -/
def decodeLE : List Byte → Nat
  | [] => 0
  | byte :: rest => byte.val + 256 * decodeLE rest

/-- Exactly `width` bytes of `value` in network order; higher bytes are lost. -/
def encodeBE : Nat → Nat → List Byte
  | 0, _ => []
  | width + 1, value =>
      ⟨value / 256 ^ width % 256, Nat.mod_lt _ (by decide)⟩ :: encodeBE width value

@[simp] theorem encode_be_length (width value : Nat) : (encodeBE width value).length = width := by
  induction width with
  | zero => rfl
  | succ width ih => simp [encodeBE, ih]

theorem decode_be_lt (bytes : List Byte) : decodeBE bytes < 256 ^ bytes.length := by
  induction bytes with
  | nil => simp [decodeBE]
  | cons byte rest ih =>
      have bounded := byte.isLt
      simp only [decodeBE, List.length_cons, pow_succ]
      nlinarith

theorem decode_be_append (high low : List Byte) :
    decodeBE (high ++ low) = decodeBE high * 256 ^ low.length + decodeBE low := by
  induction high with
  | nil => simp [decodeBE]
  | cons byte rest ih =>
      simp only [List.cons_append, decodeBE, ih, List.length_append, pow_add]
      ring

theorem decode_be_encode (width value : Nat) :
    decodeBE (encodeBE width value) = value % 256 ^ width := by
  induction width with
  | zero => simp [encodeBE, decodeBE, Nat.mod_one]
  | succ width ih =>
      simp only [encodeBE, decodeBE, encode_be_length, ih]
      rw [pow_succ, Nat.mod_mul]
      ring

theorem decode_be_encode_of_lt {width value : Nat} (fits : value < 256 ^ width) :
    decodeBE (encodeBE width value) = value := by
  rw [decode_be_encode, Nat.mod_eq_of_lt fits]

theorem encode_be_decode (bytes : List Byte) (value : Nat) :
    encodeBE bytes.length (value * 256 ^ bytes.length + decodeBE bytes) = bytes := by
  induction bytes generalizing value with
  | nil => rfl
  | cons byte rest ih =>
      have positive : 0 < 256 ^ rest.length := by positivity
      have bounded := decode_be_lt rest
      have shifted : value * 256 ^ (rest.length + 1) +
          (byte.val * 256 ^ rest.length + decodeBE rest) =
          (value * 256 + byte.val) * 256 ^ rest.length + decodeBE rest := by ring
      simp only [List.length_cons, decodeBE, shifted, encodeBE]
      have head : ((value * 256 + byte.val) * 256 ^ rest.length + decodeBE rest) /
          256 ^ rest.length % 256 = byte.val := by
        rw [Nat.add_comm, Nat.add_mul_div_right _ _ positive, Nat.div_eq_of_lt bounded]
        omega
      exact congrArg₂ List.cons (Fin.ext head) (ih _)

theorem decode_be_injective {left right : List Byte} (length : left.length = right.length)
    (same : decodeBE left = decodeBE right) : left = right := by
  have leftBytes := encode_be_decode left 0
  have rightBytes := encode_be_decode right 0
  rw [length, same] at leftBytes
  exact leftBytes.symm.trans rightBytes

/-- Exactly `width` bytes of `value`, least significant byte first. -/
def encodeLE : Nat → Nat → List Byte
  | 0, _ => []
  | width + 1, value => Fin.ofNat 256 value :: encodeLE width (value / 256)

@[simp] theorem encode_le_length (width value : Nat) : (encodeLE width value).length = width := by
  induction width generalizing value with
  | zero => rfl
  | succ width ih => simp [encodeLE, ih]

theorem decode_le_encode_le {width value : Nat} (fits : value < 256 ^ width) :
    decodeLE (encodeLE width value) = value := by
  induction width generalizing value with
  | zero =>
      rw [pow_zero] at fits
      rw [encodeLE, decodeLE]
      omega
  | succ width ih =>
      have high : value / 256 < 256 ^ width := by
        rw [Nat.div_lt_iff_lt_mul (by decide), ← pow_succ]
        exact fits
      rw [encodeLE, decodeLE, ih high]
      exact Nat.mod_add_div value 256

/-- Byte reversal of a 16-bit word: `ntohs` and `htons` on a little-endian host. -/
def swap16 (value : Nat) : Nat := value % 256 * 256 + value / 256 % 256

/-- Byte reversal of a 32-bit word: `ntohl` and `htonl` on a little-endian host. -/
def swap32 (value : Nat) : Nat :=
  value % 256 * 2 ^ 24 + value / 256 % 256 * 2 ^ 16 + value / 2 ^ 16 % 256 * 2 ^ 8 +
    value / 2 ^ 24 % 256

theorem swap16_decode_le (bytes : List Byte) (width : bytes.length = 2) :
    swap16 (decodeLE bytes) = decodeBE bytes := by
  obtain ⟨first, second, rfl⟩ := List.length_eq_two.mp width
  simp only [swap16, decodeLE, decodeBE, List.length_cons, List.length_nil]
  omega

theorem swap32_decode_le (bytes : List Byte) (width : bytes.length = 4) :
    swap32 (decodeLE bytes) = decodeBE bytes := by
  match bytes, width with
  | [first, second, third, fourth], _ =>
      simp only [swap32, decodeLE, decodeBE, List.length_cons, List.length_nil]
      omega

theorem decode_le_encode_be (value : Nat) : decodeLE (encodeBE 4 value) = swap32 value := by
  simp only [encodeBE, decodeLE, swap32, Nat.reducePow]
  omega

/-- Comparing a loaded word with a byte-reversed constant compares the bytes
themselves with that constant in network order. -/
theorem decode_le_eq_swap32_iff {bytes : List Byte} (width : bytes.length = 4)
    {value : Nat} (fits : value < 2 ^ 32) :
    decodeLE bytes = swap32 value ↔ decodeBE bytes = value := by
  have exact : decodeBE (encodeBE 4 value) = value := decode_be_encode_of_lt fits
  constructor
  · intro loaded
    have reversed := swap32_decode_le (encodeBE 4 value) (encode_be_length 4 value)
    rw [decode_le_encode_be, exact] at reversed
    rw [← swap32_decode_le bytes width, loaded, reversed]
  · intro decoded
    have same : bytes = encodeBE 4 value :=
      decode_be_injective (by rw [width, encode_be_length]) (decoded.trans exact.symm)
    rw [same, decode_le_encode_be]

/-- The C conversion of an unsigned 32-bit value to `int`. -/
def toInt32 (value : Nat) : Int := if value < 2 ^ 31 then value else value - 2 ^ 32

/-- The C conversion of an `int` expression to `uint32_t`. -/
def toUInt32 (value : Int) : Nat := (value % 2 ^ 32).toNat

theorem to_int32_of_lt {value : Nat} (small : value < 2 ^ 31) : toInt32 value = value :=
  if_pos small

theorem to_uint32_of_nonneg {value : Int} (nonneg : 0 ≤ value) (small : value < 2 ^ 32) :
    (toUInt32 value : Int) = value := by
  unfold toUInt32
  omega

/-- A negative difference comes out as its distance below `2 ^ 32`. -/
theorem to_uint32_of_negative {value : Int} (negative : value < 0) (bounded : -(2 ^ 32) < value) :
    (toUInt32 value : Int) = 2 ^ 32 + value := by
  unfold toUInt32
  omega

theorem to_uint32_eq_zero_iff {value : Int} (bounded : -(2 ^ 32) < value) (small : value < 2 ^ 32) :
    toUInt32 value = 0 ↔ value = 0 := by
  unfold toUInt32
  omega

end ProtobufLkm.ByteCodec
