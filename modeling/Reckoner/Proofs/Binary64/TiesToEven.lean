import Reckoner.Proofs.Binary64.Order

/-!
# The nearest double of all

The double that is found for a number is the nearest one of all doubles, and its last bit is clear
if another one is as near. Here infinity counts as the power of two after the largest double: a
number is rounded to it from the midpoint between these two on. The bits of the nearest double grow
with the number.
-/

set_option autoImplicit false

namespace Reckoner.Binary64

/-! ## Ties between whole numbers -/

/-- If another whole number is as near, the one that is rounded to is even. -/
theorem even_roundHalfEven {number : ℚ} {whole : ℤ} (other : whole ≠ roundHalfEven number)
    (tie : |(whole : ℚ) - number| = |(roundHalfEven number : ℚ) - number|) :
    2 ∣ roundHalfEven number := by
  have close := abs_roundHalfEven_sub_le_half number
  have apart : |whole - roundHalfEven number| = 1 := by
    have most : |(whole : ℚ) - roundHalfEven number| ≤ 1 := by
      calc |(whole : ℚ) - roundHalfEven number|
        _ = |((whole : ℚ) - number) - (roundHalfEven number - number)| := by ring_nf
        _ ≤ |(whole : ℚ) - number| + |(roundHalfEven number : ℚ) - number| := abs_sub _ _
        _ ≤ 1 := by linarith
    have mostCast : |whole - roundHalfEven number| ≤ 1 := by exact_mod_cast most
    exact le_antisymm mostCast (Int.one_le_abs (sub_ne_zero.2 other))
  by_contra odd
  have even : 2 ∣ whole := by
    rcases abs_choice (whole - roundHalfEven number) with same | negated
    · omega
    · omega
  exact other (roundHalfEven_of_even even (tie.trans_le close)).symm

/-! ## Ties between doubles -/

variable {number : ℚ} {bits : ℕ}

theorem even_unboundedBits (positive : 0 < number) (other : bits ≠ unboundedBits number)
    (tie : |magnitudeOf bits - number| = |magnitudeOf (unboundedBits number) - number|) :
    2 ∣ unboundedBits number := by
  have isUnits := magnitudeOf_unboundedBits positive
  rcases le_or_gt (finalPlace number) (place bits) with coarse | fine
  · obtain ⟨whole, same⟩ := magnitudeOf_of_le_place coarse
    have unit : (2 : ℚ) ^ finalPlace number ≠ 0 := by positivity
    have otherUnits : whole ≠ roundHalfEven (number / 2 ^ finalPlace number) := by
      rintro rfl
      apply other
      apply magnitudeOf_strictMono.injective
      rw [same, isUnits, finalUnits_eq_roundHalfEven positive]
    have units : 2 ∣ roundHalfEven (number / 2 ^ finalPlace number) := by
      apply even_roundHalfEven otherUnits
      rw [same, isUnits, abs_units_sub, abs_units_sub, finalUnits_eq_roundHalfEven positive] at tie
      exact mul_right_cancel₀ unit tie
    rw [← finalUnits_cast positive] at units
    simp only [unboundedBits, hiddenBit]
    omega
  · rw [isUnits] at tie
    exact absurd tie.symm (abs_finalUnits_sub_lt positive fine).ne

/-! ## Overflow -/

theorem midpoint_le_of_nearer {low high : ℚ} (less : low < high)
    (nearer : |high - number| ≤ |low - number|) : (low + high) / 2 ≤ number := by
  have upper := le_abs_self (high - number)
  rcases abs_cases (low - number) with ⟨same, -⟩ | ⟨negated, -⟩
  · linarith
  · linarith

theorem le_midpoint_of_nearer {low high : ℚ} (less : low < high)
    (nearer : |low - number| ≤ |high - number|) : number ≤ (low + high) / 2 := by
  have lower := neg_abs_le (low - number)
  rcases abs_cases (high - number) with ⟨same, -⟩ | ⟨negated, -⟩
  · linarith
  · linarith

theorem lt_of_infinityBits_lt (positive : 0 < number)
    (beyond : infinityBits < unboundedBits number) : magnitudeOf infinityBits < number := by
  have less := magnitudeOf_strictMono beyond
  have middle := midpoint_le_of_nearer less (abs_magnitudeOf_unboundedBits_sub_le positive _)
  linarith

theorem nearestBits_zero : nearestBits 0 = 0 :=
  if_pos le_rfl

/-- No double is nearer to a number than the one that is found for it, an infinite one included. -/
theorem nearestBits_nearest (nonneg : 0 ≤ number) (isNumber : bits ≤ infinityBits) :
    |magnitudeOf (nearestBits number) - number| ≤ |magnitudeOf bits - number| := by
  rcases nonneg.eq_or_lt with rfl | positive
  · rw [nearestBits_zero, magnitudeOf_zero, sub_self, abs_zero]
    exact abs_nonneg _
  · rw [nearestBits_of_pos positive]
    rcases le_or_gt (unboundedBits number) infinityBits with inside | beyond
    · rw [min_eq_right inside]
      exact abs_magnitudeOf_unboundedBits_sub_le positive bits
    · have above := lt_of_infinityBits_lt positive beyond
      have below := magnitudeOf_strictMono.monotone isNumber
      rw [min_eq_left beyond.le, abs_of_nonpos (by linarith), abs_of_nonpos (by linarith)]
      linarith

/-- If another double is as near, the last bit of the one that is found is clear. -/
theorem even_nearestBits (nonneg : 0 ≤ number) (other : bits ≠ nearestBits number)
    (tie : |magnitudeOf bits - number| = |magnitudeOf (nearestBits number) - number|) :
    2 ∣ nearestBits number := by
  rcases nonneg.eq_or_lt with rfl | positive
  · rw [nearestBits_zero]
    exact dvd_zero 2
  · rw [nearestBits_of_pos positive] at other tie ⊢
    rcases le_or_gt (unboundedBits number) infinityBits with inside | beyond
    · rw [min_eq_right inside] at other tie ⊢
      exact even_unboundedBits positive other tie
    · rw [min_eq_left beyond.le]
      decide

/-- The nearest double grows with the number. -/
theorem nearestBits_mono {larger : ℚ} (nonneg : 0 ≤ number) (le : number ≤ larger) :
    nearestBits number ≤ nearestBits larger := by
  by_contra above
  have less := magnitudeOf_strictMono (Nat.not_le.1 above)
  have low := midpoint_le_of_nearer less (nearestBits_nearest nonneg (nearestBits_le larger))
  have high := le_midpoint_of_nearer less
    (nearestBits_nearest (nonneg.trans le) (nearestBits_le number))
  have same : number = larger := by linarith
  exact above (same ▸ le_rfl)

/-- A number is rounded to infinity from the midpoint between the largest double and the power of
two after it on. -/
theorem nearestBits_eq_infinityBits_iff (nonneg : 0 ≤ number) :
    nearestBits number = infinityBits ↔
      (magnitudeOf (infinityBits - 1) + magnitudeOf infinityBits) / 2 ≤ number := by
  have less : magnitudeOf (infinityBits - 1) < magnitudeOf infinityBits :=
    magnitudeOf_strictMono (by decide)
  constructor
  · intro same
    have nearer := nearestBits_nearest nonneg (by decide : infinityBits - 1 ≤ infinityBits)
    rw [same] at nearer
    exact midpoint_le_of_nearer less nearer
  · intro least
    by_contra finite
    have inside := lt_of_le_of_ne (nearestBits_le number) finite
    have below : magnitudeOf (nearestBits number) ≤ magnitudeOf (infinityBits - 1) :=
      magnitudeOf_strictMono.monotone (by omega)
    have most := le_midpoint_of_nearer (below.trans_lt less)
      (nearestBits_nearest nonneg (le_refl infinityBits))
    have isLargest : nearestBits number = infinityBits - 1 :=
      magnitudeOf_strictMono.injective (by linarith)
    -- only the midpoint itself is left, and the last bit of the largest double is set
    have tie : |magnitudeOf infinityBits - number| =
        |magnitudeOf (nearestBits number) - number| := by
      rw [isLargest] at most ⊢
      rw [abs_of_pos (by linarith), abs_of_neg (by linarith)]
      linarith
    have even := even_nearestBits nonneg (Ne.symm finite) tie
    rw [isLargest] at even
    exact absurd even (by decide)

theorem magnitudeOf_infinityBits : magnitudeOf infinityBits = 2 ^ 1024 := by
  have isPlace : place infinityBits = (972 : ℕ) := by decide
  have units : significand infinityBits = 2 ^ 52 := by decide
  rw [magnitudeOf, isPlace, units, zpow_natCast, Nat.cast_pow, Nat.cast_ofNat, ← pow_add]

theorem magnitudeOf_largest : magnitudeOf (infinityBits - 1) = 2 ^ 1024 - 2 ^ 971 := by
  have isPlace : place (infinityBits - 1) = (971 : ℕ) := by decide
  have units : significand (infinityBits - 1) = 2 ^ 53 - 1 := by decide
  rw [magnitudeOf, isPlace, units, zpow_natCast, Nat.cast_sub (by decide), Nat.cast_pow,
    Nat.cast_ofNat, Nat.cast_one, sub_mul, ← pow_add, one_mul]

/-- The least number that is rounded to infinity. -/
def overflowBound : ℚ := 2 ^ 1024 - 2 ^ 970

theorem midpoint_infinityBits :
    (magnitudeOf (infinityBits - 1) + magnitudeOf infinityBits) / 2 = overflowBound := by
  have double : (2 : ℚ) ^ 971 = 2 * 2 ^ 970 := pow_succ' 2 970
  rw [magnitudeOf_largest, magnitudeOf_infinityBits, double, overflowBound]
  generalize (2 : ℚ) ^ 1024 = power
  generalize (2 : ℚ) ^ 970 = half
  ring

/-- A number that some double stands for, or that infinity counts as, is rounded to that one. -/
theorem nearestBits_magnitudeOf (isNumber : bits ≤ infinityBits) :
    nearestBits (magnitudeOf bits) = bits := by
  have close := nearestBits_nearest (magnitudeOf_nonneg bits) isNumber
  rw [sub_self, abs_zero] at close
  exact magnitudeOf_strictMono.injective (sub_eq_zero.1 (abs_nonpos_iff.1 close))

/-! ## Doubles with their signs -/

/-- A double is nearest to a number, and of two the one whose last bit is clear. The value of an
infinite double is by its bits a power of two, with the sign of the double. -/
structure IsNearest (number : ℚ) (double : Float) : Prop where
  isNumber : double.isNaN = false
  nearest : ∀ other : Float, other.isNaN = false →
    |value double - number| ≤ |value other - number|
  even : ∀ other : Float, other.isNaN = false → value other ≠ value double →
    |value other - number| = |value double - number| → 2 ∣ magnitudeBits double

theorem value_nearest (negative : Bool) (number : ℚ) :
    value (nearest negative number) = withSign negative (magnitudeOf (nearestBits number)) := by
  rw [value_eq_withSign, isNegative_nearest, magnitude, magnitudeBits_nearest]

theorem isNaN_nearest (negative : Bool) (number : ℚ) : (nearest negative number).isNaN = false := by
  rw [isNaN_eq_false_iff, magnitudeBits_nearest]
  exact nearestBits_le number

theorem isFinite_nearest_iff (negative : Bool) (nonneg : 0 ≤ number) :
    (nearest negative number).isFinite = true ↔ number < overflowBound := by
  rw [isFinite_iff, magnitudeBits_nearest, (nearestBits_le number).lt_iff_ne, Ne,
    nearestBits_eq_infinityBits_iff nonneg, midpoint_infinityBits, not_le]

theorem isInf_nearest_iff (negative : Bool) (nonneg : 0 ≤ number) :
    (nearest negative number).isInf = true ↔ overflowBound ≤ number := by
  rw [← not_lt, ← isFinite_nearest_iff negative nonneg]
  obtain ⟨nan, -, -⟩ | ⟨-, infinite, notFinite⟩ | ⟨-, notInf, finite⟩ :=
    classes (nearest negative number)
  · exact absurd nan (Bool.eq_false_iff.1 (isNaN_nearest negative number))
  · simp [infinite, notFinite]
  · simp [notInf, finite]

theorem nearest_self {double : Float} (isNumber : double.isNaN = false) :
    nearest (isNegative double) (magnitude double) = double := by
  rw [nearest, magnitude, nearestBits_magnitudeOf ((isNaN_eq_false_iff double).1 isNumber),
    ofMagnitudeBits_self]

theorem abs_withSign_sub (negative : Bool) (left right : ℚ) :
    |withSign negative left - withSign negative right| = |left - right| := by
  cases negative with
  | false => rfl
  | true =>
    change |-left - -right| = _
    rw [neg_sub_neg, abs_sub_comm]

/-- Numbers of different signs are as far apart as their magnitudes are together. -/
theorem abs_withSign_not_sub (negative : Bool) {left right : ℚ} (leftNonneg : 0 ≤ left)
    (rightNonneg : 0 ≤ right) :
    |withSign (!negative) left - withSign negative right| = left + right := by
  cases negative with
  | false =>
    change |-left - right| = _
    rw [abs_of_nonpos (by linarith)]
    ring
  | true =>
    change |left - -right| = _
    rw [sub_neg_eq_add, abs_of_nonneg (by linarith)]

/-- The double that is found for a magnitude is nearest to the number with that magnitude and with
the sign of the double. -/
theorem isNearest_nearest (negative : Bool) (nonneg : 0 ≤ number) :
    IsNearest (withSign negative number) (nearest negative number) := by
  have zero := nearestBits_nearest nonneg (Nat.zero_le infinityBits)
  rw [magnitudeOf_zero, zero_sub, abs_neg, abs_of_nonneg nonneg] at zero
  -- a double of the other sign is no nearer than zero is
  have apart (other : Float) (differs : isNegative other ≠ negative) :
      |value other - withSign negative number| = magnitude other + number := by
    rw [value_eq_withSign, Bool.eq_not_of_ne differs]
    exact abs_withSign_not_sub negative (magnitude_nonneg other) nonneg
  refine ⟨isNaN_nearest negative number, fun other isNumber => ?_, fun other isNumber => ?_⟩
  · rw [value_nearest, abs_withSign_sub]
    by_cases same : isNegative other = negative
    · rw [value_eq_withSign, same, abs_withSign_sub]
      exact nearestBits_nearest nonneg ((isNaN_eq_false_iff other).1 isNumber)
    · rw [apart other same]
      exact zero.trans (le_add_of_nonneg_left (magnitude_nonneg other))
  · rw [value_nearest, abs_withSign_sub, magnitudeBits_nearest]
    intro different tie
    by_cases same : isNegative other = negative
    · rw [value_eq_withSign, same] at different tie
      rw [abs_withSign_sub] at tie
      refine even_nearestBits nonneg (fun sameBits => different ?_) tie
      rw [magnitude, sameBits]
    · rw [apart other same] at tie
      have none : magnitude other = 0 := by linarith [magnitude_nonneg other]
      refine @even_nearestBits number 0 nonneg (fun isZero => different ?_) ?_
      · rw [value_eq_withSign, none, ← isZero, magnitudeOf_zero]
        simp [withSign]
      · rw [magnitudeOf_zero, zero_sub, abs_neg, abs_of_nonneg nonneg, ← tie, none, zero_add]

end Reckoner.Binary64
