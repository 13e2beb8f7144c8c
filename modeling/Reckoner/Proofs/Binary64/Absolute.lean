import Reckoner.Proofs.Binary64.Negation

/-!
# Absolute values

The absolute value of a double is the double itself or, for a negative one, its negation; a NaN is
both. The sign of a product has no part in how the product is rounded, so the absolute value of a
product is the product of the absolute values, also where the product is too large for a double or
too small for one.
-/

set_option autoImplicit false

namespace Reckoner.Binary64

open Float.Model Float.Model.UnpackedFloat

/-! ## Signs -/

theorem shape_abs (negative : Bool) (bits : Nat) :
    (shape negative bits).abs = shape false bits := by
  rcases Nat.lt_trichotomy bits infinityBits with finite | infinite | beyond
  · rcases Nat.eq_zero_or_pos bits with zero | positive
    · rw [zero, shape_zero, shape_zero]
      rfl
    · rw [shape_finite _ positive finite, shape_finite _ positive finite]
      rfl
  · rw [infinite, shape_infinity, shape_infinity]
    rfl
  · rw [shape_notANumber _ beyond, shape_notANumber _ beyond]
    rfl

theorem abs_eq (number : Float) :
    number.abs = Float.ofModel (Float.Model.pack number.toModel.unpack.abs) := rfl

theorem abs_of_nonnegative {number : Float} (nonnegative : isNegative number = false) :
    number.abs = number := by
  have unpacked := unpack_toModel number
  rw [nonnegative] at unpacked
  rw [abs_eq, unpacked, shape_abs]
  exact pack_unpack_of_eq unpacked

theorem abs_of_negative {number : Float} (negative : isNegative number = true) :
    number.abs = -number := by
  rw [abs_eq, neg_eq, unpack_toModel, negative, shape_abs, ← shape_not]
  rfl

theorem unpack_abs (number : Float) : number.abs.toModel.unpack = number.toModel.unpack.abs := by
  cases sign : isNegative number with
  | false => rw [abs_of_nonnegative sign, unpack_toModel, sign, shape_abs]
  | true =>
    rw [abs_of_negative sign, unpack_neg, unpack_toModel, sign, shape_abs, ← shape_not]
    rfl

/-! ## Packing -/

theorem toNat_packComponents (sign : UnpackedFloat.Sign)
    (exponent : BitVec Format.binary64.exponentBits)
    (mantissa : BitVec Format.binary64.mantissaBitsWithoutImplicit) :
    (packComponents Format.binary64 sign exponent mantissa).toNat =
      sign.toBitVec.toNat * signBit + exponent.toNat * hiddenBit + mantissa.toNat := by
  generalize isWord : packComponents Format.binary64 sign exponent mantissa = word
  have low := toNat_unpackMantissa word
  have middle := toNat_unpackExponent word
  have high := toNat_unpackSign word
  have bound : word.toNat < 18446744073709551616 := word.isLt
  rw [← isWord, unpackMantissa_packComponents, isWord] at low
  rw [← isWord, unpackExponent_packComponents, isWord] at middle
  rw [← isWord, unpackSign_packComponents, isWord] at high
  rw [low, middle, high]
  simp only [signBit, hiddenBit]
  omega

theorem toNat_packedInfinity (sign : UnpackedFloat.Sign) :
    (packedInfinity Format.binary64 sign).toNat =
      sign.toBitVec.toNat * signBit + infinityBits := by
  cases sign <;> rfl

/-- The bits that a finite number is packed to are the same for both signs, but for the sign's own;
a number that is too large is packed to an infinity. -/
theorem exists_pack_finite {mantissa : Nat} (exponent : Int) (positive : 0 < mantissa) :
    ∃ bits ≤ infinityBits, ∀ sign : UnpackedFloat.Sign,
      (UnpackedFloat.pack Format.binary64 (.finite sign mantissa exponent positive)).toNat =
        sign.toBitVec.toNat * signBit + bits := by
  simp only [UnpackedFloat.pack]
  generalize isBiased : (exponent + Format.binary64.exponentBias +
    Format.binary64.mantissaBitsWithoutImplicit).toNat = biased
  have width : 2 ^ Format.binary64.exponentBits = 2048 := rfl
  have fraction : (BitVec.ofNat Format.binary64.mantissaBitsWithoutImplicit mantissa).toNat <
      4503599627370496 := BitVec.isLt _
  by_cases large : 2 ^ Format.binary64.exponentBits ≤ biased + 1
  · refine ⟨infinityBits, Nat.le_refl _, fun sign => ?_⟩
    rw [if_pos large]
    exact toNat_packedInfinity sign
  · simp only [if_neg large]
    rw [width] at large
    by_cases normal : mantissa.log2 + 1 = Format.binary64.mantissaBits
    · refine ⟨biased * hiddenBit +
        (BitVec.ofNat Format.binary64.mantissaBitsWithoutImplicit mantissa).toNat, ?_,
        fun sign => ?_⟩
      · simp only [infinityBits, hiddenBit]
        omega
      · have kept : (BitVec.ofNat Format.binary64.exponentBits biased).toNat = biased :=
          Nat.mod_eq_of_lt (by omega)
        rw [if_pos normal, toNat_packComponents, kept, Nat.add_assoc]
    · refine ⟨(BitVec.ofNat Format.binary64.mantissaBitsWithoutImplicit mantissa).toNat, ?_,
        fun sign => ?_⟩
      · simp only [infinityBits]
        omega
      · rw [if_neg normal, toNat_packComponents, BitVec.toNat_ofNat, Nat.zero_mod, Nat.zero_mul,
          Nat.add_zero]

theorem abs_ofMagnitudeBits (negative : Bool) {bits : Nat} (number : bits ≤ infinityBits) :
    (ofMagnitudeBits negative bits).abs = ofMagnitudeBits false bits := by
  rw [abs_eq, unpack_ofMagnitudeBits negative number, shape_abs]
  exact pack_unpack_of_eq (unpack_ofMagnitudeBits false number)

theorem ofModel_pack_finite (negative : Bool) {mantissa bits : Nat} {exponent : Int}
    {positive : 0 < mantissa}
    (packed : ∀ sign : UnpackedFloat.Sign,
      (UnpackedFloat.pack Format.binary64 (.finite sign mantissa exponent positive)).toNat =
        sign.toBitVec.toNat * signBit + bits) :
    Float.ofModel (Float.Model.pack (.finite (signOf negative) mantissa exponent positive)) =
      ofMagnitudeBits negative bits := by
  generalize isNumber :
    Float.ofModel (Float.Model.pack (.finite (signOf negative) mantissa exponent positive)) = number
  have word : number.toBits.toNat = if negative then signBit + bits else bits := by
    rw [← isNumber]
    refine (packed (signOf negative)).trans ?_
    cases negative with
    | false => exact Nat.zero_add bits
    | true => exact congrArg (· + bits) (Nat.one_mul signBit)
  rw [ofMagnitudeBits, ← word, UInt64.ofNat_toNat, Float.ofBits_toBits]

/-- The absolute value of what an operation of the model gives can be taken before it is packed. -/
theorem abs_pack (unpacked : UnpackedFloat) :
    (Float.ofModel (Float.Model.pack unpacked)).abs =
      Float.ofModel (Float.Model.pack unpacked.abs) := by
  cases unpacked with
  | notANumber => rfl
  | infinity sign => cases sign <;> rfl
  | zero sign => cases sign <;> rfl
  | finite sign mantissa exponent positive =>
    obtain ⟨bits, most, packed⟩ := exists_pack_finite exponent positive
    have isSign : ∃ negative, sign = signOf negative := by
      cases sign with
      | positive => exact ⟨false, rfl⟩
      | negative => exact ⟨true, rfl⟩
    obtain ⟨negative, rfl⟩ := isSign
    rw [ofModel_pack_finite negative packed, abs_ofMagnitudeBits negative most]
    exact (ofModel_pack_finite false packed).symm

/-! ## Products -/

theorem roundWithAccuracy_abs (sign : UnpackedFloat.Sign) (mantissa : Nat) (exponent : Int)
    (accuracy : Accuracy) :
    (roundWithAccuracy Format.binary64 sign mantissa exponent accuracy).abs =
      roundWithAccuracy Format.binary64 .positive mantissa exponent accuracy := by
  simp only [roundWithAccuracy]
  split
  · rfl
  · rfl

theorem unpacked_mul_abs (left right : UnpackedFloat) :
    (UnpackedFloat.mul Format.binary64 left right).abs =
      UnpackedFloat.mul Format.binary64 left.abs right.abs := by
  cases left <;> cases right <;> first | rfl | exact roundWithAccuracy_abs _ _ _ _

protected theorem abs_mul (left right : Float) : (left * right).abs = left.abs * right.abs := by
  rw [mul_eq, mul_eq, abs_pack, unpacked_mul_abs, unpack_abs, unpack_abs]

end Reckoner.Binary64
