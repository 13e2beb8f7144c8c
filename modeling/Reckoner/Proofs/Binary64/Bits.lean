import Mathlib
import Reckoner.Binary64

/-!
# The bits of doubles

A double is its sign and its bits without the sign, and these say which of the four shapes it
unpacks to: a zero, a finite number with its significand and place, an infinity, or the one NaN.

Mathlib is imported whole here because no smaller part of it brings along the lemmas about the model
of doubles, such as the one that packs what has been unpacked.
-/

set_option autoImplicit false

namespace Reckoner.Binary64

open Float.Model Float.Model.UnpackedFloat

/-! ## Fields of a word -/

variable (word : BitVec Format.binary64.numBits)

theorem toNat_unpackMantissa : (unpackMantissa word).toNat = word.toNat % hiddenBit := by
  simp [unpackMantissa_def, hiddenBit]

theorem toNat_unpackExponent : (unpackExponent word).toNat = word.toNat / hiddenBit % 2048 := by
  simp [unpackExponent_def, hiddenBit, Nat.shiftRight_eq_div_pow]

theorem toNat_unpackSign : (unpackSign word).toNat = word.toNat / signBit % 2 := by
  simp [unpackSign_def, signBit, Nat.shiftRight_eq_div_pow]

def signOf (negative : Bool) : Sign :=
  if negative then .negative else .positive

/-- What a double of the given sign with the given other bits unpacks to. -/
def shape (negative : Bool) (bits : Nat) : UnpackedFloat :=
  if infinityBits < bits then .notANumber
  else if bits = infinityBits then .infinity (signOf negative)
  else if positive : 0 < significand bits then
    .finite (signOf negative) (significand bits) (place bits) positive
  else .zero (signOf negative)

theorem significand_pos {bits : Nat} : 0 < significand bits ↔ 0 < bits := by
  by_cases small : bits < hiddenBit
  · simp [significand, small]
  · rw [significand, if_neg small]
    simp only [hiddenBit] at small ⊢
    omega

theorem shape_finite (negative : Bool) {bits : Nat} (positive : 0 < bits)
    (finite : bits < infinityBits) :
    shape negative bits = .finite (signOf negative) (significand bits) (place bits)
      (significand_pos.2 positive) := by
  have noNaN : ¬ infinityBits < bits := by omega
  have noInfinity : bits ≠ infinityBits := by omega
  simp only [shape, noNaN, noInfinity, significand_pos, positive, if_false, dif_pos]

theorem shape_zero (negative : Bool) : shape negative 0 = .zero (signOf negative) := by
  simp [shape, infinityBits, significand, hiddenBit]

theorem shape_infinity (negative : Bool) :
    shape negative infinityBits = .infinity (signOf negative) := by
  simp [shape]

theorem shape_notANumber (negative : Bool) {bits : Nat} (beyond : infinityBits < bits) :
    shape negative bits = .notANumber := by
  simp [shape, beyond]

theorem finite_congr {sign : Sign} {mantissa other : Nat} {exponent power : Int}
    {positive : 0 < mantissa} (sameMantissa : mantissa = other) (sameExponent : exponent = power) :
    UnpackedFloat.finite sign mantissa exponent positive =
      .finite sign other power (sameMantissa ▸ positive) := by
  subst sameMantissa sameExponent
  rfl

theorem signOf_unpackSign :
    Sign.ofBitVec (unpackSign word) = signOf (decide (signBit ≤ word.toNat)) := by
  have bound : word.toNat < 18446744073709551616 := word.isLt
  have field := toNat_unpackSign word
  simp only [Sign.ofBitVec, signOf, ← BitVec.toNat_inj, field, signBit]
  by_cases negative : 9223372036854775808 ≤ word.toNat
  · have one : word.toNat / 9223372036854775808 % 2 = 1 := by omega
    simp [negative, one]
  · have none : word.toNat / 9223372036854775808 % 2 = 0 := by omega
    simp [negative, none]

theorem fields_mod (number : Nat) :
    number % signBit / hiddenBit = number / hiddenBit % 2048 ∧
      number % signBit % hiddenBit = number % hiddenBit := by
  simp only [signBit, hiddenBit]
  omega

/-- The bit that a normal number leaves out is above all others of its significand. -/
theorem toNat_append_unpackMantissa :
    (1#1 ++ unpackMantissa word).toNat = hiddenBit + (unpackMantissa word).toNat := by
  have whole : (1#1 ++ unpackMantissa word).toNat =
      4503599627370496 ||| (unpackMantissa word).toNat := by
    rw [BitVec.toNat_append]
    rfl
  have fraction : (unpackMantissa word).toNat < 2 ^ 52 := (unpackMantissa word).isLt
  rw [whole, Nat.or_comm, show 4503599627370496 = 2 ^ 52 from rfl,
    Nat.or_two_pow_eq_add_of_lt fraction, Nat.add_comm]
  rfl

theorem unpack_eq_shape :
    UnpackedFloat.unpack Format.binary64 word =
      shape (decide (signBit ≤ word.toNat)) (word.toNat % signBit) := by
  have mantissa := toNat_unpackMantissa word
  have exponent := toNat_unpackExponent word
  obtain ⟨high, low⟩ := fields_mod word.toNat
  rw [← high] at exponent
  rw [← low] at mantissa
  have below : word.toNat % signBit < signBit := Nat.mod_lt _ (by decide)
  have full : unpackExponent word = -1#_ ↔ word.toNat % signBit / hiddenBit = 2047 := by
    rw [← BitVec.toNat_inj, exponent]
    rfl
  have empty : unpackExponent word = 0#_ ↔ word.toNat % signBit / hiddenBit = 0 := by
    rw [← BitVec.toNat_inj, exponent]
    rfl
  have round : unpackMantissa word = 0#_ ↔ word.toNat % signBit % hiddenBit = 0 := by
    rw [← BitVec.toNat_inj, mantissa]
    rfl
  unfold UnpackedFloat.unpack
  simp only [signOf_unpackSign]
  generalize word.toNat % signBit = bits at *
  generalize decide (signBit ≤ word.toNat) = negative
  simp only [signBit, hiddenBit] at *
  by_cases isFull : bits / 4503599627370496 = 2047
  · by_cases isRound : bits % 4503599627370496 = 0
    · rw [if_pos (full.2 isFull), if_pos (round.2 isRound)]
      have infinite : bits = infinityBits := by
        simp only [infinityBits]
        omega
      rw [infinite, shape_infinity]
    · rw [if_pos (full.2 isFull), if_neg (mt round.1 isRound)]
      have beyond : infinityBits < bits := by
        simp only [infinityBits]
        omega
      rw [shape_notANumber negative beyond]
  · have finite : bits < infinityBits := by
      simp only [infinityBits]
      omega
    rw [if_neg (mt full.1 isFull)]
    by_cases isEmpty : bits / 4503599627370496 = 0
    · have small : bits < hiddenBit := by
        simp only [hiddenBit]
        omega
      rw [if_pos (empty.2 isEmpty)]
      by_cases isRound : bits % 4503599627370496 = 0
      · have zero : bits = 0 := by omega
        rw [dif_pos (round.2 isRound), zero, shape_zero]
      · rw [dif_neg (mt round.1 isRound), shape_finite negative (by omega) finite]
        refine finite_congr ?_ ?_
        · rw [mantissa, significand, if_pos small]
          omega
        · rw [exponent, isEmpty, place, if_pos small]
          rfl
    · have large : ¬ bits < hiddenBit := by
        simp only [hiddenBit]
        omega
      rw [if_neg (mt empty.1 isEmpty), shape_finite negative (by omega) finite]
      refine finite_congr ?_ ?_
      · rw [toNat_append_unpackMantissa, mantissa, significand, if_neg large]
        rfl
      · rw [exponent, place, if_neg large]
        simp only [lowestPlace, Format.exponentBias, hiddenBit]
        omega

/-! ## Doubles -/

theorem unpack_toModel (number : Float) :
    number.toModel.unpack = shape (isNegative number) (magnitudeBits number) :=
  unpack_eq_shape number.toBits.toBitVec

theorem pack_unpack_toModel (number : Float) :
    Float.ofModel (Float.Model.pack number.toModel.unpack) = number :=
  Float.ofBits_toBits number

/-- What an operation of the model gives is unpacked again to itself when some double has it. -/
theorem pack_unpack_of_eq {number : Float} {unpacked : UnpackedFloat}
    (same : number.toModel.unpack = unpacked) : Float.ofModel (Float.Model.pack unpacked) = number := by
  rw [← same, pack_unpack_toModel]

theorem toNat_toBits (number : Float) :
    number.toBits.toNat = (if isNegative number then signBit else 0) + magnitudeBits number := by
  have bound := number.toBits.toNat_lt
  by_cases negative : signBit ≤ number.toBits.toNat
  · simp only [isNegative, decide_eq_true negative, if_true, magnitudeBits]
    simp only [signBit] at negative ⊢
    omega
  · simp only [isNegative, decide_eq_false negative, Bool.false_eq_true, if_false, magnitudeBits]
    simp only [signBit] at negative ⊢
    omega

theorem ofMagnitudeBits_self (number : Float) :
    ofMagnitudeBits (isNegative number) (magnitudeBits number) = number := by
  have whole := toNat_toBits number
  have same : (if isNegative number = true then signBit + magnitudeBits number
      else magnitudeBits number) = number.toBits.toNat := by
    rw [whole]
    split
    · rfl
    · simp
  rw [ofMagnitudeBits, same, UInt64.ofNat_toNat, Float.ofBits_toBits]

theorem isFinite_iff (number : Float) :
    number.isFinite = true ↔ magnitudeBits number < infinityBits := by
  have unpacked := unpack_toModel number
  have same : number.isFinite = number.toModel.unpack.isFinite := rfl
  rw [same, unpacked]
  rcases Nat.lt_trichotomy (magnitudeBits number) infinityBits with finite | infinite | beyond
  · rcases Nat.eq_zero_or_pos (magnitudeBits number) with zero | positive
    · rw [zero, shape_zero]
      simp [UnpackedFloat.isFinite, infinityBits]
    · rw [shape_finite _ positive finite]
      simp [UnpackedFloat.isFinite, finite]
  · rw [infinite, shape_infinity]
    simp [UnpackedFloat.isFinite]
  · rw [shape_notANumber _ beyond]
    simp [UnpackedFloat.isFinite, Nat.le_of_lt beyond]

/-- A double is a NaN, or infinite, or finite, and no two of these. -/
theorem classes (number : Float) :
    (number.isNaN = true ∧ number.isInf = false ∧ number.isFinite = false) ∨
      (number.isNaN = false ∧ number.isInf = true ∧ number.isFinite = false) ∨
      (number.isNaN = false ∧ number.isInf = false ∧ number.isFinite = true) := by
  have noNaN : number.isNaN = number.toModel.unpack.isNaN := rfl
  have noInf : number.isInf = number.toModel.unpack.isInf := rfl
  have isModel : number.isFinite = number.toModel.unpack.isFinite := rfl
  rw [noNaN, noInf, isModel]
  cases number.toModel.unpack with
  | notANumber => exact .inl ⟨rfl, rfl, rfl⟩
  | infinity => exact .inr (.inl ⟨rfl, rfl, rfl⟩)
  | zero | finite => exact .inr (.inr ⟨rfl, rfl, rfl⟩)

/-- There is one NaN only. -/
theorem eq_notANumber {number : Float} (nan : number.isNaN = true) : number = notANumber := by
  have unpacked {other : Float} (isNaN : other.isNaN = true) :
      other.toModel.unpack = .notANumber := by
    have isModel : other.isNaN = other.toModel.unpack.isNaN := rfl
    rw [isModel] at isNaN
    cases unpacked : other.toModel.unpack with
    | notANumber => rfl
    | infinity | zero | finite =>
      rw [unpacked] at isNaN
      cases isNaN
  rw [← pack_unpack_of_eq (unpacked nan), ← pack_unpack_of_eq (@unpacked notANumber rfl)]

theorem eq_infinity {number : Float} (infinite : number.isInf = true) :
    number = infinity (isNegative number) := by
  have isModel : number.isInf = number.toModel.unpack.isInf := rfl
  have unpacked := unpack_toModel number
  rw [isModel, unpacked] at infinite
  have bits : magnitudeBits number = infinityBits := by
    rcases Nat.lt_trichotomy (magnitudeBits number) infinityBits with finite | same | beyond
    · rcases Nat.eq_zero_or_pos (magnitudeBits number) with zero | positive
      · rw [zero, shape_zero] at infinite
        cases infinite
      · rw [shape_finite _ positive finite] at infinite
        cases infinite
    · exact same
    · rw [shape_notANumber _ beyond] at infinite
      cases infinite
  rw [infinity, ← bits, ofMagnitudeBits_self]

section

variable (negative : Bool) {bits : Nat}

/-- The bits of a double that is no NaN are those it was made of. -/
theorem toNat_toBits_ofMagnitudeBits (number : bits ≤ infinityBits) :
    (ofMagnitudeBits negative bits).toBits.toNat = (if negative then signBit else 0) + bits := by
  have word : (if negative = true then signBit + bits else bits) =
      (if negative then signBit else 0) + bits := by
    cases negative <;> simp
  rw [ofMagnitudeBits, word]
  simp only [infinityBits] at number
  have small : (if negative = true then signBit else 0) + bits < 2 ^ 64 := by
    cases negative <;> simp [signBit] <;> omega
  generalize packed : UInt64.ofNat ((if negative = true then signBit else 0) + bits) = whole
  have value : whole.toNat = (if negative = true then signBit else 0) + bits := by
    rw [← packed, UInt64.toNat_ofNat_of_lt' small]
  have canonical : (Float.ofBits whole).toBits.toBitVec =
      (UnpackedFloat.unpack Format.binary64 whole.toBitVec).pack Format.binary64 := rfl
  have noNaN : @isNaNBits Format.binary64 whole.toBitVec = false := by
    apply decide_eq_false
    rintro ⟨full, fraction⟩
    rw [← BitVec.toNat_inj, toNat_unpackExponent, UInt64.toNat_toBitVec, value] at full
    rw [ne_eq, ← BitVec.toNat_inj, toNat_unpackMantissa, UInt64.toNat_toBitVec, value] at fraction
    change _ = 2047 at full
    change ¬ _ = 0 at fraction
    simp only [hiddenBit, signBit] at full fraction
    cases negative
    · simp only [Bool.false_eq_true, if_false] at full fraction
      omega
    · simp only [if_true] at full fraction
      omega
  rw [pack_unpack, noNaN] at canonical
  simp only [Bool.false_eq_true, if_false] at canonical
  rw [← value, ← UInt64.toNat_toBitVec, canonical, UInt64.toNat_toBitVec]

theorem isNegative_ofMagnitudeBits (number : bits ≤ infinityBits) :
    isNegative (ofMagnitudeBits negative bits) = negative := by
  have whole := toNat_toBits_ofMagnitudeBits negative number
  simp only [infinityBits] at number
  cases negative
  · apply decide_eq_false
    rw [whole]
    simp [signBit]
    omega
  · apply decide_eq_true
    rw [whole]
    simp [signBit]

theorem magnitudeBits_ofMagnitudeBits (number : bits ≤ infinityBits) :
    magnitudeBits (ofMagnitudeBits negative bits) = bits := by
  have whole := toNat_toBits_ofMagnitudeBits negative number
  simp only [infinityBits] at number
  rw [magnitudeBits, whole]
  cases negative
  · simp [signBit]
    omega
  · simp [signBit]
    omega

theorem unpack_ofMagnitudeBits (number : bits ≤ infinityBits) :
    (ofMagnitudeBits negative bits).toModel.unpack = shape negative bits := by
  rw [unpack_toModel, isNegative_ofMagnitudeBits negative number,
    magnitudeBits_ofMagnitudeBits negative number]

end

end Reckoner.Binary64
