import Reckoner.Proofs.Binary64.Exact

/-!
# Negation and multiplication by minus one

Negating a double flips its sign and keeps its other bits. A NaN has no sign to flip and is its own
negation. A product does not depend on the order of its factors nor on which of them is negated, and
multiplying by minus one negates: the product of the significands ends in as many zeros as the
significand of one does, so nothing is lost when it is shifted back to its place.
-/

set_option autoImplicit false

namespace Reckoner.Binary64

open Float.Model Float.Model.UnpackedFloat

/-! ## Signs -/

theorem sign_mul_comm (left right : UnpackedFloat.Sign) : left * right = right * left := by
  cases left <;> cases right <;> rfl

theorem sign_neg_mul (left right : UnpackedFloat.Sign) : -left * right = left * -right := by
  cases left <;> cases right <;> rfl

theorem sign_mul_negative (sign : UnpackedFloat.Sign) : sign * .negative = -sign := by
  cases sign <;> rfl

theorem signOf_not (negative : Bool) : signOf (!negative) = -signOf negative := by
  cases negative <;> rfl

/-! ## Negation -/

theorem shape_not (negative : Bool) (bits : Nat) :
    shape (!negative) bits = (shape negative bits).neg := by
  rcases Nat.lt_trichotomy bits infinityBits with finite | infinite | beyond
  · rcases Nat.eq_zero_or_pos bits with zero | positive
    · rw [zero, shape_zero, shape_zero, signOf_not]
      rfl
    · rw [shape_finite _ positive finite, shape_finite _ positive finite, signOf_not]
      rfl
  · rw [infinite, shape_infinity, shape_infinity, signOf_not]
    rfl
  · rw [shape_notANumber _ beyond, shape_notANumber _ beyond]
    rfl

theorem neg_eq (number : Float) :
    -number = Float.ofModel (Float.Model.pack number.toModel.unpack.neg) := rfl

theorem neg_ofMagnitudeBits (negative : Bool) {bits : Nat} (number : bits ≤ infinityBits) :
    -ofMagnitudeBits negative bits = ofMagnitudeBits (!negative) bits := by
  rw [neg_eq, unpack_ofMagnitudeBits negative number, ← shape_not]
  exact pack_unpack_of_eq (unpack_ofMagnitudeBits _ number)

theorem neg_of_infinityBits_lt {number : Float} (beyond : infinityBits < magnitudeBits number) :
    -number = number := by
  have unpacked := unpack_toModel number
  rw [shape_notANumber _ beyond] at unpacked
  rw [neg_eq, unpacked]
  exact pack_unpack_of_eq unpacked

theorem magnitudeBits_neg (number : Float) : magnitudeBits (-number) = magnitudeBits number := by
  rcases Nat.lt_or_ge infinityBits (magnitudeBits number) with beyond | isNumber
  · rw [neg_of_infinityBits_lt beyond]
  · rw [← ofMagnitudeBits_self number, neg_ofMagnitudeBits _ isNumber,
      magnitudeBits_ofMagnitudeBits _ isNumber, magnitudeBits_ofMagnitudeBits _ isNumber]

theorem isNegative_neg {number : Float} (isNumber : magnitudeBits number ≤ infinityBits) :
    isNegative (-number) = !isNegative number := by
  conv_lhs => rw [← ofMagnitudeBits_self number]
  rw [neg_ofMagnitudeBits _ isNumber, isNegative_ofMagnitudeBits _ isNumber]

theorem unpack_neg (number : Float) : (-number).toModel.unpack = number.toModel.unpack.neg := by
  rcases Nat.lt_or_ge infinityBits (magnitudeBits number) with beyond | isNumber
  · rw [neg_of_infinityBits_lt beyond, unpack_toModel, shape_notANumber _ beyond]
    rfl
  · rw [unpack_toModel, unpack_toModel, isNegative_neg isNumber, magnitudeBits_neg, shape_not]

theorem magnitude_neg (number : Float) : magnitude (-number) = magnitude number := by
  rw [magnitude, magnitude, magnitudeBits_neg]

theorem isFinite_neg (number : Float) : (-number).isFinite = number.isFinite := by
  rw [Bool.eq_iff_iff, isFinite_iff, isFinite_iff, magnitudeBits_neg]

/-! ## Multiplication -/

theorem mul_eq (left right : Float) :
    left * right = Float.ofModel (Float.Model.pack
      (UnpackedFloat.mul Format.binary64 left.toModel.unpack right.toModel.unpack)) := rfl

protected theorem mul_comm (left right : Float) : left * right = right * left := by
  rw [mul_eq, mul_eq]
  congr 2
  generalize left.toModel.unpack = x
  generalize right.toModel.unpack = y
  cases x <;> cases y <;>
    simp only [UnpackedFloat.mul, sign_mul_comm, Nat.mul_comm, Int.add_comm]

protected theorem neg_mul (left right : Float) : -left * right = left * -right := by
  rw [mul_eq, mul_eq, unpack_neg, unpack_neg]
  congr 2
  generalize left.toModel.unpack = x
  generalize right.toModel.unpack = y
  cases x <;> cases y <;> simp only [UnpackedFloat.mul, UnpackedFloat.neg, sign_neg_mul]

/-! ## Multiplication by minus one -/

/-- The zeros at the end of a significand are shifted out without a trace. -/
theorem shiftRight_exact (mantissa shift : Nat) :
    (⟨mantissa * 2 ^ shift, false, false⟩ : ExtendedMantissa) >>> shift =
      ⟨mantissa, false, false⟩ := by
  induction shift generalizing mantissa with
  | zero =>
    rw [Nat.pow_zero, Nat.mul_one]
    rfl
  | succ shift inner =>
    have whole : mantissa * 2 ^ (shift + 1) = mantissa * 2 * 2 ^ shift := by
      rw [Nat.pow_succ, Nat.mul_comm (2 ^ shift), Nat.mul_assoc]
    have last : (⟨mantissa * 2 * 2 ^ shift, false, false⟩ : ExtendedMantissa) >>> (shift + 1) =
        ((⟨mantissa * 2 * 2 ^ shift, false, false⟩ : ExtendedMantissa) >>> shift).shiftRightOne :=
      rfl
    rw [whole, last, inner]
    simp [ExtendedMantissa.shiftRightOne]

theorem log2_mul_two_pow {number : Nat} (some : number ≠ 0) (shift : Nat) :
    (number * 2 ^ shift).log2 = number.log2 + shift := by
  induction shift with
  | zero => rw [Nat.pow_zero, Nat.mul_one, Nat.add_zero]
  | succ shift inner =>
    have twice : number * 2 ^ (shift + 1) = 2 * (number * 2 ^ shift) := by
      rw [Nat.pow_succ, Nat.mul_comm (2 ^ shift), Nat.mul_left_comm]
    have product : number * 2 ^ shift ≠ 0 := Nat.mul_ne_zero some (Nat.ne_of_gt (Nat.two_pow_pos _))
    rw [twice, Nat.log2_two_mul product, inner, Nat.add_assoc]

/-- The place of a double is the one that its significand is rounded to. -/
theorem targetExponent_place {bits : Nat} (positive : 0 < bits) :
    Format.binary64.targetExponent (totalExponent (significand bits) (place bits)) = place bits := by
  have least : Format.binary64.minExponent = lowestPlace := by decide
  have width : Format.binary64.mantissaBits = 53 := rfl
  have some := Nat.ne_of_gt (significand_pos.2 positive)
  rw [Format.targetExponent, least, width, totalExponent]
  have above := lowestPlace_le_place bits
  by_cases small : bits < hiddenBit
  · have few : (significand bits).log2 < 52 := by
      rw [Nat.log2_lt some, significand, if_pos small]
      exact small
    have lowest : place bits = lowestPlace := by
      rw [place, if_pos small]
    omega
  · have all : (significand bits).log2 = 52 := by
      rw [Nat.log2_eq_iff some]
      refine ⟨?_, significand_lt bits⟩
      rw [significand, if_neg small]
      exact Nat.le_add_right _ _
    omega

/-- A finite double is kept by a rounding of so many times its significand so many places below. -/
theorem roundWithAccuracy_shifted (sign : UnpackedFloat.Sign) {mantissa : Nat} {exponent : Int}
    (positive : 0 < mantissa) (shift : Nat)
    (canonical : Format.binary64.targetExponent (totalExponent mantissa exponent) = exponent) :
    roundWithAccuracy Format.binary64 sign (mantissa * 2 ^ shift) (exponent - shift) .exact =
      .finite sign mantissa exponent positive := by
  have total : totalExponent (mantissa * 2 ^ shift) (exponent - shift) =
      totalExponent mantissa exponent := by
    rw [totalExponent, totalExponent, log2_mul_two_pow (Nat.ne_of_gt positive)]
    omega
  have shifted : shiftToTargetExponent Format.binary64 (mantissa * 2 ^ shift) (exponent - shift)
      .exact = (⟨mantissa, false, false⟩, exponent) := by
    have amount : (exponent - (exponent - shift)).toNat = shift := by omega
    simp only [shiftToTargetExponent, shiftToExponent, total, canonical, amount,
      ExtendedMantissa.ofMantissaAndAccuracy, shiftRight_exact, Int.sub_add_cancel]
  have again := @shiftRight_exact mantissa 0
  rw [Nat.pow_zero, Nat.mul_one] at again
  have kept : shiftToTargetExponent Format.binary64 mantissa exponent .exact =
      (⟨mantissa, false, false⟩, exponent) := by
    simp [shiftToTargetExponent, shiftToExponent, canonical,
      ExtendedMantissa.ofMantissaAndAccuracy, again]
  simp [roundWithAccuracy, shifted, kept, ExtendedMantissa.roundedMantissa,
    ExtendedMantissa.accuracy, Accuracy.roundToNearestEven, Nat.ne_of_gt positive]

theorem unpack_neg_one : (-one).toModel.unpack = .finite .negative (2 ^ 52) (-52) (by decide) := rfl

protected theorem mul_neg_one (number : Float) : number * -one = -number := by
  rw [mul_eq, unpack_neg_one, neg_eq, unpack_toModel]
  congr 2
  generalize magnitudeBits number = bits
  generalize isNegative number = negative
  rcases Nat.lt_trichotomy bits infinityBits with finite | infinite | beyond
  · rcases Nat.eq_zero_or_pos bits with zero | positive
    · rw [zero, shape_zero]
      simp only [UnpackedFloat.mul, UnpackedFloat.neg, sign_mul_negative]
    · rw [shape_finite _ positive finite]
      simp only [UnpackedFloat.mul, UnpackedFloat.neg, sign_mul_negative]
      exact roundWithAccuracy_shifted _ _ 52 (targetExponent_place positive)
  · rw [infinite, shape_infinity]
    simp only [UnpackedFloat.mul, UnpackedFloat.neg, sign_mul_negative]
  · rw [shape_notANumber _ beyond]
    rfl

protected theorem neg_one_mul (number : Float) : -one * number = -number := by
  rw [Binary64.mul_comm, Binary64.mul_neg_one]

end Reckoner.Binary64
