import Mathlib.Data.EReal.Operations
import Mathlib.Tactic.SplitIfs
import Mathlib.Tactic.Positivity

/-!
IEEE 754 binary32 numbers: the fields of a bit pattern, the extended real number
they stand for, and the comparison of two of them. Magnitudes are counted in
units of the least subnormal number, which is `2 ^ -149`; infinity comes right
behind the largest finite magnitude.
-/

namespace ProtobufLkm.Binary32

set_option autoImplicit false

structure Number where
  negative : Bool
  exponent : Fin 256
  fraction : Fin 8388608
  deriving DecidableEq, Repr

def ofBits (bits : Nat) : Number where
  negative := bits / 2147483648 % 2 = 1
  exponent := ⟨bits / 8388608 % 256, Nat.mod_lt _ (by decide)⟩
  fraction := ⟨bits % 8388608, Nat.mod_lt _ (by decide)⟩

def isNaN (number : Number) : Bool := number.exponent.val = 255 ∧ number.fraction.val ≠ 0

def isFinite (number : Number) : Bool := number.exponent.val ≠ 255

/-- Subnormal numbers lack the leading one and have the least normal exponent. -/
def magnitude (number : Number) : Nat :=
  if number.exponent.val = 0 then number.fraction.val
  else (8388608 + number.fraction.val) * 2 ^ (number.exponent.val - 1)

def units (number : Number) : Int :=
  if number.negative then -(magnitude number : Int) else magnitude number

/-- `<` of two floats: every comparison with a NaN is false. -/
def less (left right : Number) : Bool :=
  !isNaN left && !isNaN right && decide (units left < units right)

/-- The number a pattern other than a NaN stands for. -/
noncomputable def value (number : Number) : EReal :=
  let size : EReal :=
    if isFinite number then ((magnitude number / 2 ^ 149 : ℝ) : EReal) else ⊤
  if number.negative then -size else size

section Order

/-- The magnitude of infinity in units. -/
def infinityUnits : Nat := 2 ^ 24 * 2 ^ 253

/-- The extended real number a signed count of units stands for. -/
noncomputable def embed (count : Int) : EReal :=
  if (infinityUnits : Int) ≤ count then ⊤
  else if count ≤ -(infinityUnits : Int) then ⊥
  else ((count / 2 ^ 149 : ℝ) : EReal)

def InRange (count : Int) : Prop := -(infinityUnits : Int) ≤ count ∧ count ≤ (infinityUnits : Int)

theorem embed_lt_of_lt {left right : Int} (leftInside : InRange left) (rightInside : InRange right)
    (less : left < right) : embed left < embed right := by
  have leftFinite : ¬(infinityUnits : Int) ≤ left := not_le.mpr (less.trans_le rightInside.2)
  have rightFinite : ¬right ≤ -(infinityUnits : Int) := not_le.mpr (leftInside.1.trans_lt less)
  rw [embed, if_neg leftFinite, embed]
  split_ifs with leftBottom rightTop
  · exact bot_lt_top
  · exact EReal.bot_lt_coe _
  · exact EReal.coe_lt_top _
  · rw [EReal.coe_lt_coe_iff]
    have cast : (left : ℝ) < right := Int.cast_lt.mpr less
    exact div_lt_div_of_pos_right cast (by positivity)

theorem embed_lt_iff {left right : Int} (leftInside : InRange left) (rightInside : InRange right) :
    embed left < embed right ↔ left < right := by
  constructor
  · intro smaller
    by_contra other
    rcases (not_lt.mp other).lt_or_eq with larger | same
    · exact absurd (embed_lt_of_lt rightInside leftInside larger) smaller.asymm
    · exact absurd (congrArg embed same) smaller.ne'
  · exact embed_lt_of_lt leftInside rightInside

theorem magnitude_lt {number : Number} (finite : isFinite number = true) :
    magnitude number < infinityUnits := by
  have exponent := number.exponent.isLt
  have fraction := number.fraction.isLt
  have other : number.exponent.val ≠ 255 := of_decide_eq_true finite
  rw [magnitude]
  split_ifs
  · exact fraction.trans (by decide)
  · calc (8388608 + number.fraction.val) * 2 ^ (number.exponent.val - 1)
        < 2 ^ 24 * 2 ^ (number.exponent.val - 1) :=
          Nat.mul_lt_mul_of_pos_right (by omega) (by positivity)
      _ ≤ 2 ^ 24 * 2 ^ 253 :=
          Nat.mul_le_mul_left _ (Nat.pow_le_pow_right (by decide) (by omega))

theorem magnitude_infinite {number : Number} (present : isNaN number = false)
    (infinite : isFinite number = false) : magnitude number = infinityUnits := by
  have exponent : number.exponent.val = 255 := by simpa [isFinite] using infinite
  have fraction : number.fraction.val = 0 := by simpa [isNaN, exponent] using present
  rw [magnitude, exponent, fraction]
  decide

theorem units_in_range {number : Number} (present : isNaN number = false) :
    InRange (units number) := by
  have bounded : magnitude number ≤ infinityUnits := by
    cases finite : isFinite number with
    | true => exact (magnitude_lt finite).le
    | false => exact (magnitude_infinite present finite).le
  rw [units]
  constructor <;> split_ifs <;> omega

theorem value_eq_embed {number : Number} (present : isNaN number = false) :
    value number = embed (units number) := by
  cases finite : isFinite number with
  | true =>
      have bounded := magnitude_lt finite
      have upper : ¬(infinityUnits : Int) ≤ units number := by
        rw [units]
        split_ifs <;> omega
      have lower : ¬units number ≤ -(infinityUnits : Int) := by
        rw [units]
        split_ifs <;> omega
      rw [embed, if_neg upper, if_neg lower, value, units]
      simp only [finite, if_true]
      split_ifs
      · rw [← EReal.coe_neg, Int.cast_neg, Int.cast_natCast, neg_div]
      · rw [Int.cast_natCast]
  | false =>
      have size := magnitude_infinite present finite
      rw [value, units, size]
      simp only [finite, Bool.false_eq_true, if_false]
      split_ifs
      · have negative : ¬(infinityUnits : Int) ≤ -(infinityUnits : Int) := by decide
        rw [embed, if_neg negative, if_pos le_rfl]
        rfl
      · rw [embed, if_pos le_rfl]

/-- The comparison is that of the numbers. -/
theorem less_iff (left right : Number) :
    less left right = true ↔
      isNaN left = false ∧ isNaN right = false ∧ value left < value right := by
  rw [less, Bool.and_eq_true, Bool.and_eq_true, Bool.not_eq_true', Bool.not_eq_true', and_assoc,
    decide_eq_true_eq]
  apply and_congr_right
  intro leftPresent
  apply and_congr_right
  intro rightPresent
  rw [value_eq_embed leftPresent, value_eq_embed rightPresent]
  exact (embed_lt_iff (units_in_range leftPresent) (units_in_range rightPresent)).symm

end Order

section Bits

/-- The pattern without its sign. -/
def position (number : Number) : Nat := number.exponent.val * 8388608 + number.fraction.val

theorem magnitude_lt_of_exponent {left right : Number}
    (exponent : left.exponent.val < right.exponent.val) : magnitude left < magnitude right := by
  have fraction := left.fraction.isLt
  have nonzero : right.exponent.val ≠ 0 := by omega
  have least : 8388608 * 2 ^ (right.exponent.val - 1) ≤ magnitude right := by
    rw [magnitude, if_neg nonzero]
    exact Nat.mul_le_mul_right _ (Nat.le_add_right _ _)
  apply lt_of_lt_of_le _ least
  rw [magnitude]
  split_ifs with subnormal
  · calc left.fraction.val < 8388608 := fraction
      _ ≤ 8388608 * 2 ^ (right.exponent.val - 1) := Nat.le_mul_of_pos_right _ (by positivity)
  · calc (8388608 + left.fraction.val) * 2 ^ (left.exponent.val - 1)
        < (8388608 * 2) * 2 ^ (left.exponent.val - 1) :=
          Nat.mul_lt_mul_of_pos_right (by omega) (by positivity)
      _ = 8388608 * 2 ^ left.exponent.val := by
          rw [Nat.mul_assoc, ← Nat.pow_succ', Nat.succ_eq_add_one, Nat.sub_add_cancel (by omega)]
      _ ≤ 8388608 * 2 ^ (right.exponent.val - 1) :=
          Nat.mul_le_mul_left _ (Nat.pow_le_pow_right (by decide) (by omega))

theorem magnitude_lt_of_fraction {left right : Number}
    (exponent : left.exponent.val = right.exponent.val)
    (fraction : left.fraction.val < right.fraction.val) : magnitude left < magnitude right := by
  rw [magnitude, magnitude, exponent]
  split_ifs
  · exact fraction
  · exact Nat.mul_lt_mul_of_pos_right (by omega) (by positivity)

theorem magnitude_lt_of_position {left right : Number} (ahead : position left < position right) :
    magnitude left < magnitude right := by
  have leftFraction := left.fraction.isLt
  have rightFraction := right.fraction.isLt
  rw [position, position] at ahead
  rcases Nat.lt_trichotomy left.exponent.val right.exponent.val with lower | same | higher
  · exact magnitude_lt_of_exponent lower
  · exact magnitude_lt_of_fraction same (by omega)
  · omega

theorem magnitude_eq_of_position {left right : Number} (same : position left = position right) :
    magnitude left = magnitude right := by
  have leftFraction := left.fraction.isLt
  have rightFraction := right.fraction.isLt
  rw [position, position] at same
  have exponent : left.exponent.val = right.exponent.val := by omega
  have fraction : left.fraction.val = right.fraction.val := by omega
  rw [magnitude, magnitude, exponent, fraction]

theorem magnitude_lt_iff (left right : Number) :
    magnitude left < magnitude right ↔ position left < position right := by
  constructor
  · intro larger
    rcases Nat.lt_trichotomy (position left) (position right) with ahead | same | behind
    · exact ahead
    · exact absurd (magnitude_eq_of_position same) larger.ne
    · exact absurd (magnitude_lt_of_position behind) larger.asymm
  · exact magnitude_lt_of_position

theorem position_of_bits (bits : Nat) : position (ofBits bits) = bits % 2147483648 := by
  simp only [position, ofBits]
  omega

theorem is_nan_of_bits (bits : Nat) :
    isNaN (ofBits bits) = true ↔ 2139095040 < bits % 2147483648 := by
  rw [isNaN, decide_eq_true_iff]
  simp only [ofBits]
  omega

theorem negative_of_bits {bits : Nat} (width : bits < 4294967296) :
    (ofBits bits).negative = true ↔ 2147483648 ≤ bits := by
  simp only [ofBits, decide_eq_true_eq]
  omega

/-- Nothing but larger patterns up to that of infinity is greater than a number
without a sign. -/
theorem less_of_bits_iff {low high : Nat} (number : low ≤ 2139095040) (width : high < 4294967296) :
    less (ofBits low) (ofBits high) = true ↔ low < high ∧ high ≤ 2139095040 := by
  have lowPresent : isNaN (ofBits low) = false := by
    rw [← Bool.not_eq_true, is_nan_of_bits]
    omega
  have lowUnits : units (ofBits low) = magnitude (ofBits low) := by
    rw [units, if_neg]
    rw [negative_of_bits (by omega)]
    omega
  have lowPosition : position (ofBits low) = low := by
    rw [position_of_bits]
    omega
  rw [less, lowPresent, lowUnits, Bool.not_false, Bool.true_and, Bool.and_eq_true,
    Bool.not_eq_true', ← Bool.not_eq_true, is_nan_of_bits, decide_eq_true_eq, units]
  by_cases signed : 2147483648 ≤ high
  · rw [if_pos ((negative_of_bits width).mpr signed)]
    omega
  · rw [if_neg (mt (negative_of_bits width).mp signed), Int.ofNat_lt, magnitude_lt_iff, lowPosition,
      position_of_bits, Nat.mod_eq_of_lt (by omega)]
    omega

end Bits

end ProtobufLkm.Binary32
