import ProtobufLkm.Binary32
import ProtobufLkm.FloatsMessage
import ProtobufLkm.NetfilterFrameRoundTrip

/-!
# The floats filter

`process_message` of the floats example compares the received float with the
`float` constant `10.1`, which is the least one above that decimal. The constant
itself and every NaN are let through.
-/

namespace ProtobufLkm.FloatsFilter

open ByteCodec Binary32 SkBuffModel NetfilterHookModel TcpSegmentModel LengthFraming
open FloatsMessage NetfilterFrameRoundTrip

set_option autoImplicit false

/-- The bits of `10.1` as a `float`. -/
def tresholdBits : Nat := 1092721050

def tresholdF : Number := ofBits tresholdBits

/-- `process_message` of the floats example; the FPU state around the comparison
is left out. -/
def processMessage (decoder : PbtoolsDecoder) (message : List Byte) : Verdict :=
  let barf := ofBits (decodedBar decoder message).toNat
  let discardF := less tresholdF barf
  if discardF then .drop else .accept

/-- The rule in numbers: the float exceeds `10.1` and is not the constant. -/
def ExceedsTreshold (bar : UInt32) : Prop :=
  isNaN (ofBits bar.toNat) = false ∧ ((101 / 10 : ℝ) : EReal) < value (ofBits bar.toNat) ∧
    bar.toNat ≠ tresholdBits

section Constant

theorem value_of_magnitude {number : Number} (positive : number.negative = false)
    (finite : isFinite number = true) {count : Nat} (size : magnitude number = count) :
    value number = ((count / 2 ^ 149 : ℝ) : EReal) := by
  simp only [value, positive, finite, size, if_true, Bool.false_eq_true, if_false]

/-- No float lies between `10.1` and the constant. -/
theorem treshold_above : ((101 / 10 : ℝ) : EReal) < value tresholdF := by
  have size : magnitude tresholdF = 10590618 * 2 ^ 129 := by decide
  rw [value_of_magnitude (by decide) (by decide) size, EReal.coe_lt_coe_iff]
  norm_num

theorem before_treshold_below :
    value (ofBits (tresholdBits - 1)) < ((101 / 10 : ℝ) : EReal) := by
  have size : magnitude (ofBits (tresholdBits - 1)) = 10590617 * 2 ^ 129 := by decide
  rw [value_of_magnitude (by decide) (by decide) size, EReal.coe_lt_coe_iff]
  norm_num

end Constant

section Rule

variable (decoder : PbtoolsDecoder) (message : List Byte)

theorem process_message_drop_iff :
    processMessage decoder message = .drop ↔
      tresholdBits < (decodedBar decoder message).toNat ∧
        (decodedBar decoder message).toNat ≤ 2139095040 := by
  have rule : less tresholdF (ofBits (decodedBar decoder message).toNat) = true ↔ _ :=
    less_of_bits_iff (by decide) (UInt32.toNat_lt _)
  rw [← rule]
  simp only [processMessage]
  split_ifs with discard
  · exact iff_of_true rfl discard
  · exact iff_of_false (by simp) discard

theorem exceeds_treshold_iff (bar : UInt32) :
    ExceedsTreshold bar ↔ tresholdBits < bar.toNat ∧ bar.toNat ≤ 2139095040 := by
  have width : bar.toNat < 4294967296 := bar.toNat_lt
  have above := less_of_bits_iff (by decide : tresholdBits ≤ 2139095040) width
  have next := less_of_bits_iff (by decide : tresholdBits - 1 ≤ 2139095040) width
  have step : tresholdBits - 1 < bar.toNat ↔ tresholdBits ≤ bar.toNat := by
    rw [tresholdBits]
    omega
  rw [step] at next
  constructor
  · rintro ⟨present, larger, other⟩
    have beyond : less (ofBits (tresholdBits - 1)) (ofBits bar.toNat) = true :=
      (less_iff _ _).mpr ⟨by decide, present, before_treshold_below.trans larger⟩
    have bounds := next.mp beyond
    exact ⟨lt_of_le_of_ne bounds.1 other.symm, bounds.2⟩
  · intro bounds
    obtain ⟨_, present, larger⟩ := (less_iff _ _).mp (above.mpr bounds)
    exact ⟨present, treshold_above.trans larger, bounds.1.ne'⟩

/-- Whatever is decoded, the message is dropped exactly for the bit patterns
behind the constant up to infinity, which are the floats above `10.1` other than
the constant. -/
theorem floats_rule :
    (processMessage decoder message = .drop ↔
      tresholdBits < (decodedBar decoder message).toNat ∧
        (decodedBar decoder message).toNat ≤ 2139095040) ∧
    (processMessage decoder message = .drop ↔ ExceedsTreshold (decodedBar decoder message)) :=
  ⟨process_message_drop_iff decoder message,
    (process_message_drop_iff decoder message).trans (exceeds_treshold_iff _).symm⟩

end Rule

section Delivery

variable {api : SkbApi} {decoder : PbtoolsDecoder} {segment : TcpSegment} {bar : UInt32}

/-- A framed float in one pushed segment: without a buffer it is dropped, with
one it is dropped exactly when it exceeds the threshold. -/
theorem floats_verdict (faithful : api.Faithful) (conforms : decoder.Conforms)
    (pushed : segment.psh = true) (payload : segment.payload = frame (marshalFoo bar)) :
    (buffered api segment = false →
      (hookFunc api (processMessage decoder) (some segment.toSkBuff)).verdict = .drop) ∧
    (buffered api segment = true →
      ((hookFunc api (processMessage decoder) (some segment.toSkBuff)).verdict = .drop ↔
        ExceedsTreshold bar)) := by
  refine ⟨unbuffered_dropped _ pushed, fun inspects => ?_⟩
  by_cases zero : bar = 0
  · have empty : marshalFoo bar = [] := by rw [zero, marshal_foo_zero]
    rw [unjudged_frame_accepted faithful _ pushed inspects payload (Or.inl empty),
      exceeds_treshold_iff, zero]
    exact iff_of_false (by simp) (by decide)
  · have length := marshal_foo_length_le bar
    rw [framed_message_judged faithful _ pushed inspects payload (marshal_foo_ne_nil zero)
      (by omega), process_message_drop_iff, exceeds_treshold_iff, decoded_bar_marshal conforms]

/-- A NaN passes, in a linear segment. -/
theorem floats_verdict_nan :
    ¬(hookFunc (copyingApi fun _ => 0) (processMessage wireDecoder)
      (some (linearSegment true (frame (marshalFoo 2143289344)) (by decide)
        fun _ => 0).toSkBuff)).verdict = .drop := by
  have inspects : buffered (copyingApi fun _ => 0)
      (linearSegment true (frame (marshalFoo 2143289344)) (by decide) fun _ => 0) = true := by
    simp [buffered, copyingApi]
  rw [(floats_verdict (copying_api_faithful _) wire_decoder_conforms (linear_segment_psh _ _)
    (linear_segment_payload _ _)).2 inspects, exceeds_treshold_iff]
  decide

end Delivery

end ProtobufLkm.FloatsFilter
