import Reckoner.Proofs.Binary64.Nearest
import Reckoner.Proofs.Decimal.Refusal

/-!
# Rounding twice

Rounding a double that has been rounded to the same number of places changes nothing, although the
rounded decimal is usually no double and the second rounding meets another number than the first.
The double found for the decimal is as near to it as the double that was rounded, so it is at most
half a step away. Only the upper half step would be rounded elsewhere, and then the two doubles were
a whole step apart, which no two doubles are for a step that is a fraction.
-/

set_option autoImplicit false

namespace Reckoner

namespace Binary64

/-! ## Halves up -/

theorem roundHalfUp_eq {number : ℚ} {whole : ℤ} (least : (whole : ℚ) ≤ number + 1 / 2)
    (most : number + 1 / 2 < whole + 1) : roundHalfUp number = whole :=
  Int.floor_eq_iff.2 ⟨least, most⟩

theorem roundHalfUp_spec (number : ℚ) :
    (roundHalfUp number : ℚ) ≤ number + 1 / 2 ∧ number + 1 / 2 < roundHalfUp number + 1 := by
  have above := Rat.lt_floor_add_one (number + 1 / 2)
  push_cast at above
  exact ⟨Rat.floor_le _, above⟩

/-- A number that is as near to a rounded one as the number that was rounded is rounded to the same,
unless it lies a whole step above that number. -/
theorem roundHalfUp_of_near {first second : ℚ}
    (near : |second - roundHalfUp first| ≤ |first - roundHalfUp first|)
    (apart : second - first ≠ 1) : roundHalfUp second = roundHalfUp first := by
  obtain ⟨least, most⟩ := roundHalfUp_spec first
  generalize roundHalfUp first = whole at *
  have half : |first - whole| ≤ 1 / 2 := by
    rw [abs_le]
    constructor <;> linarith
  obtain ⟨lower, upper⟩ := abs_le.1 (near.trans half)
  apply roundHalfUp_eq
  · linarith
  · rcases upper.lt_or_eq with less | tie
    · linarith
    · -- the first number is then half a step below, and the second is a step above it
      have farthest : 1 / 2 ≤ |first - whole| := by
        rw [← abs_of_pos (by norm_num : (0 : ℚ) < 1 / 2), ← tie]
        exact near
      rcases le_abs.1 farthest with right | left
      · linarith
      · exact absurd (by linarith) apart

/-- Doubles are no whole decimal step apart when the step is a fraction. -/
theorem magnitudeOf_sub_mul_ne_one (first second : ℕ) {places : ℕ} (some : places ≠ 0) :
    (magnitudeOf second - magnitudeOf first) * 10 ^ places ≠ 1 := by
  intro step
  obtain ⟨firstUnits, isFirst⟩ := magnitudeOf_of_le_place (lowestPlace_le_place first)
  obtain ⟨secondUnits, isSecond⟩ := magnitudeOf_of_le_place (lowestPlace_le_place second)
  obtain ⟨depth, isLowest⟩ : ∃ depth : ℕ, lowestPlace = -depth := ⟨1074, rfl⟩
  have powers : (secondUnits - firstUnits) * 10 ^ places = (2 : ℤ) ^ depth := by
    rw [isFirst, isSecond, isLowest, ← sub_mul, zpow_neg, zpow_natCast, mul_right_comm,
      ← div_eq_mul_inv, div_eq_one_iff_eq (by positivity)] at step
    exact_mod_cast step
  have five : (5 : ℤ) ∣ 2 ^ depth := by
    rw [← powers]
    exact Dvd.dvd.mul_left (Dvd.dvd.trans (by decide) (dvd_pow_self 10 some)) _
  have prime : Prime (5 : ℤ) := by norm_num
  exact absurd (prime.dvd_of_dvd_pow five) (by decide)

end Binary64

namespace Decimal

open Binary64

theorem roundMagnitude_natCast (magnitude : ℚ) (places : ℕ) :
    roundMagnitude magnitude places = roundHalfUp (magnitude * 10 ^ places) / 10 ^ places := by
  rw [roundMagnitude, zpow_natCast]

theorem roundMagnitude_le (magnitude : ℚ) (places : ℕ) :
    roundMagnitude magnitude places ≤ magnitude + 1 / 2 := by
  have least := (roundHalfUp_spec (magnitude * 10 ^ places)).1
  have step : (1 : ℚ) ≤ 10 ^ places := one_le_pow₀ (by norm_num)
  rw [roundMagnitude_natCast, div_le_iff₀ (by positivity)]
  linarith

theorem roundMagnitude_lt {magnitude : ℚ} (most : magnitude ≤ hiddenBit) (places : ℕ) :
    roundMagnitude magnitude places < (2 : ℚ) ^ (53 : ℤ) := by
  have above := roundMagnitude_le magnitude places
  norm_num [hiddenBit] at most ⊢
  linarith

theorem roundMagnitude_of_near {first second : ℚ} {places : ℕ}
    (near : |second - roundMagnitude first places| ≤ |first - roundMagnitude first places|)
    (apart : (second - first) * 10 ^ places ≠ 1) :
    roundMagnitude second places = roundMagnitude first places := by
  have step : (0 : ℚ) < 10 ^ places := by positivity
  have scaled (number : ℚ) : |number * 10 ^ places - roundHalfUp (first * 10 ^ places)| =
      |number - roundMagnitude first places| * 10 ^ places := by
    rw [roundMagnitude_natCast, ← abs_of_pos step, ← abs_mul, sub_mul, abs_of_pos step,
      div_mul_cancel₀ _ step.ne']
  have same : roundHalfUp (second * 10 ^ places) = roundHalfUp (first * 10 ^ places) := by
    apply roundHalfUp_of_near
    · rw [scaled, scaled]
      exact mul_le_mul_of_nonneg_right near step.le
    · rwa [← sub_mul]
  rw [roundMagnitude_natCast, roundMagnitude_natCast, same]

/-- A double with decimal places is no larger than the numbers of 52 binary digits. -/
theorem magnitude_le_of_exactPlaces_pos {number : Float} (some : 0 < exactPlaces number) :
    magnitude number ≤ hiddenBit := by
  rcases le_or_gt 0 (place (magnitudeBits number)) with coarse | fine
  · obtain ⟨whole, same⟩ := magnitudeOf_of_le_place coarse
    rw [zpow_zero, mul_one] at same
    have one : (magnitude number).den = 2 ^ 0 := by
      rw [magnitude, same, Rat.den_intCast, pow_zero]
    rw [exactPlaces_eq one] at some
    exact absurd some (Nat.lt_irrefl 0)
  · have most := (magnitudeOf_of_place_lt fine).le
    rwa [zpow_zero, mul_one] at most

/-- The double found for a rounded magnitude is no whole step above the magnitude. -/
theorem nearest_roundMagnitude_apart {bits places : ℕ} (most : magnitudeOf bits ≤ hiddenBit)
    (positive : 0 < roundMagnitude (magnitudeOf bits) places) :
    (magnitudeOf (nearestBits (roundMagnitude (magnitudeOf bits) places)) - magnitudeOf bits) *
      10 ^ places ≠ 1 := by
  have above := roundMagnitude_le (magnitudeOf bits) places
  cases places with
  | succ places => exact magnitudeOf_sub_mul_ne_one bits _ (Nat.succ_ne_zero places)
  | zero =>
    -- a whole number of this size is a double, so it lies half a step above at most
    have isWhole : ∃ whole : ℕ, roundMagnitude (magnitudeOf bits) (0 : ℕ) = whole := by
      rw [roundMagnitude_natCast, pow_zero, div_one] at positive ⊢
      obtain ⟨whole, same⟩ := Int.eq_ofNat_of_zero_le (Int.cast_pos.1 positive).le
      exact ⟨whole, by rw [same, Int.cast_natCast]⟩
    obtain ⟨whole, same⟩ := isWhole
    rw [same] at positive above ⊢
    have below : whole < 2 * hiddenBit := by
      have cast : (whole : ℚ) < (2 * hiddenBit : ℕ) := by
        have half : (1 / 2 : ℚ) < hiddenBit := by norm_num [hiddenBit]
        push_cast
        linarith
      exact_mod_cast cast
    rw [magnitudeOf_nearestBits_natCast (Nat.cast_pos.1 positive) below, pow_zero, mul_one]
    intro step
    linarith

/-- The double found for a rounded magnitude is rounded to the same magnitude. -/
theorem roundMagnitude_nearest {bits places : ℕ} (most : magnitudeOf bits ≤ hiddenBit)
    (positive : 0 < roundMagnitude (magnitudeOf bits) places) :
    roundMagnitude (magnitudeOf (nearestBits (roundMagnitude (magnitudeOf bits) places))) places =
      roundMagnitude (magnitudeOf bits) places := by
  have finite := nearestBits_lt (roundMagnitude_lt most places) (by decide)
  apply roundMagnitude_of_near
  · exact abs_magnitudeOf_nearestBits_sub_le positive finite bits
  · exact nearest_roundMagnitude_apart most positive

theorem rounded_of_exactPlaces_le {number : Float} {places : ℕ}
    (few : (exactPlaces number : ℤ) ≤ places) : rounded number places = number := by
  simp [rounded, few]

theorem exactPlaces_nearest_of_le_zero (negative : Bool) {number : ℚ} (zero : number ≤ 0) :
    exactPlaces (nearest negative number) = 0 := by
  apply exactPlaces_eq
  rw [magnitude, magnitudeBits_nearest, nearestBits, if_pos zero]
  simp [magnitudeOf, significand, hiddenBit]

/-- Rounding twice is rounding once. -/
theorem rounded_rounded (number : Float) (places : ℕ) :
    rounded (rounded number places) places = rounded number places := by
  by_cases kept : (!number.isFinite || (exactPlaces number : ℤ) ≤ places) = true
  · have same : rounded number places = number := if_pos kept
    rw [same, same]
  · have isNearest : rounded number places =
        nearest (isNegative number) (roundMagnitude (magnitude number) places) := if_neg kept
    have some : 0 < exactPlaces number := by
      simp only [Bool.or_eq_true, decide_eq_true_eq, not_or] at kept
      omega
    rw [isNearest]
    rcases le_or_gt (roundMagnitude (magnitude number) places) 0 with zero | positive
    · apply rounded_of_exactPlaces_le
      rw [exactPlaces_nearest_of_le_zero _ zero]
      exact Int.natCast_nonneg places
    · have again := roundMagnitude_nearest (magnitude_le_of_exactPlaces_pos some) positive
      unfold rounded
      split
      · rfl
      · rw [isNegative_nearest, magnitude, magnitudeBits_nearest]
        rw [← magnitude] at again
        rw [again]

theorem roundHalfAway_of_ok {number result : Float} {places : ℕ}
    (ok : roundHalfAway number places = .ok result) : roundHalfAway result places = .ok result := by
  have isRounded := rounded_of_ok ok
  by_cases kept : (!number.isFinite || (exactPlaces number : ℤ) ≤ places) = true
  · have same : rounded number places = number := if_pos kept
    rwa [← isRounded, same] at ok ⊢
  · -- places short of what a double can have are far from being refused
    simp only [Bool.or_eq_true, Bool.not_eq_true', decide_eq_true_eq, not_or,
      Bool.not_eq_false] at kept
    have most := exactPlaces_le kept.1
    have workable : Workable places := by
      unfold Workable maxWorkingDigits
      omega
    rw [roundHalfAway_of_workable result workable, ← isRounded, rounded_rounded]

end Decimal

theorem Precision.round_of_ok {precision : Precision} {number result : Float}
    (ok : precision.round number = .ok result) : precision.round result = .ok result := by
  cases precision with
  | unset => rfl
  | places count => exact Decimal.roundHalfAway_of_ok ok

end Reckoner
