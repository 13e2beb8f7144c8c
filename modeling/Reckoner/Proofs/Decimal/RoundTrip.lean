import Reckoner.Proofs.Keys
import Reckoner.Proofs.LeadingNumber
import Reckoner.Proofs.Lexeme

/-!
# Displayed results typed in again

From eight on a double is at least two to the power of minus fifty away from the midpoints around
it, and its display is off by no more than half a unit of the fifteenth place, which is less. So the
display is read back as the double. Only the midpoint below eight itself is nearer, since the
doubles there are twice as close; but eight is displayed exactly.
-/

set_option autoImplicit false

namespace Reckoner

namespace Binary64

variable {bits : ℕ}

theorem place_of_eight_le (large : 8 ≤ magnitudeOf bits) : -49 ≤ place bits := by
  by_contra fine
  have small := magnitudeOf_of_place_lt (not_le.1 fine)
  have eight : (hiddenBit : ℚ) * 2 ^ (-49 : ℤ) = 8 := by norm_num [hiddenBit]
  linarith

/-- The least significand of eight's place is eight's. -/
theorem place_of_eight_lt (above : 8 < magnitudeOf bits) (least : significand bits = hiddenBit) :
    -48 ≤ place bits := by
  by_contra fine
  have eight : (hiddenBit : ℚ) * 2 ^ (-49 : ℤ) = 8 := by norm_num [hiddenBit]
  have small : magnitudeOf bits ≤ hiddenBit * 2 ^ (-49 : ℤ) := by
    rw [magnitudeOf, least]
    gcongr
    · norm_num
    · omega
  linarith

theorem pos_of_eight_le (large : 8 ≤ magnitudeOf bits) : 0 < bits := by
  by_contra none
  rw [Nat.eq_zero_of_not_pos none, magnitudeOf_zero] at large
  norm_num at large

/-- Above eight the midpoints are farther from a double than half a unit of the fifteenth place. -/
theorem between_of_eight_lt {number : ℚ} (above : 8 < magnitudeOf bits)
    (close : |number - magnitudeOf bits| ≤ 1 / (2 * 10 ^ Decimal.writtenPlaces)) :
    lower bits < number ∧ number < upper bits := by
  have half (place : ℤ) : (2 : ℚ) ^ place / 2 = 2 ^ (place - 1) := by
    rw [zpow_sub_one₀ (by norm_num), div_eq_mul_inv]
  have near : |number - magnitudeOf bits| < 2 ^ (-50 : ℤ) :=
    close.trans_lt (by norm_num [Decimal.writtenPlaces])
  refine between_of_near (pos_of_eight_le above.le) ?_ (fun least => ?_) near
  · have coarse := place_of_eight_le above.le
    rw [half]
    exact zpow_le_zpow_right₀ (by norm_num) (by omega)
  · have coarse := place_of_eight_lt above least
    rw [half]
    exact zpow_le_zpow_right₀ (by norm_num) (by omega)

end Binary64

open Text Binary64

/-- A numeral reads as the double nearest to the number that it writes. -/
theorem SignedNumeral.toFloat_of_value {signed : SignedNumeral} {negative : Bool} {magnitude : ℚ}
    (positive : 0 < magnitude) (same : signed.value = withSign negative magnitude) :
    signed.toFloat = nearest negative magnitude := by
  obtain ⟨sign, whole⟩ := withSign_inj signed.numeral.value_nonneg positive same
  rw [toFloat_eq_nearest, sign, whole]

namespace Decimal

variable {number : Float}

/-- From eight on a double is nearest to its display. -/
theorem nearestBits_fixedUnits {bits : ℕ} (finite : bits < infinityBits)
    (large : 8 ≤ magnitudeOf bits) :
    nearestBits (fixedUnits writtenPlaces (magnitudeOf bits) / 10 ^ writtenPlaces) = bits := by
  rcases large.eq_or_lt with eight | above
  · -- the midpoint below eight is too near, but eight is displayed as it is
    have units : fixedUnits writtenPlaces 8 = 8 * 10 ^ writtenPlaces := by decide +kernel
    have exact : (fixedUnits writtenPlaces (magnitudeOf bits) : ℚ) / 10 ^ writtenPlaces =
        magnitudeOf bits := by
      rw [← eight, units]
      norm_num [writtenPlaces]
    rw [exact, nearestBits_magnitudeOf finite.le]
  · exact nearestBits_of_between (pos_of_eight_le large) finite
      (.inl (between_of_eight_lt above (abs_fixedUnits_sub_le _ (magnitudeOf_nonneg bits))))

theorem toFloat_trimmed_formatted (finite : number.isFinite = true) (large : 8 ≤ |value number|) :
    (formatted number).trimmed.toFloat = number := by
  rw [abs_value] at large
  have isNearest : nearestBits (fixedUnits writtenPlaces (magnitude number) / 10 ^ writtenPlaces) =
      magnitudeBits number := nearestBits_fixedUnits ((isFinite_iff number).1 finite) large
  have positive : (0 : ℚ) < fixedUnits writtenPlaces (magnitude number) / 10 ^ writtenPlaces := by
    by_contra none
    rw [nearestBits, if_pos (not_lt.1 none)] at isNearest
    exact (pos_of_eight_le large).ne isNearest
  have isValue := (SignedNumeral.value_trimmed (isPositional_formatted number)).trans
    (value_formatted number)
  rw [SignedNumeral.toFloat_of_value positive isValue, nearest, isNearest, ofMagnitudeBits_self]

/-- What is displayed of a finite result from eight on is one numeral, which is read as the result
and evaluates to it under settings that round no results. -/
theorem display_reads_back (finite : number.isFinite = true) (large : 8 ≤ |value number|) :
    let shown := trimFraction (format number)
    tokenize shown = [.ofNumber shown number] ∧ parseNumber shown = .ok number ∧
      ∀ (calculator : Calculator) (random : RandomSource),
        calculator.settings.resultPrecision = .unset →
        ∃ report, calculator.evaluate random shown = (.ok report, calculator, random) ∧
          report.value = number ∧ report.display = some shown := by
  intro shown
  have positional := isPositional_formatted number
  have isChars : shown = String.ofList (formatted number).trimmed.chars := by
    change trimFraction (format number) = _
    rw [format_eq finite, positional.trimFraction_chars rfl]
  have isNumber := toFloat_trimmed_formatted finite large
  have written := positional.trimmed.written
  have whole : tokenize shown = [.ofNumber shown number] := by
    rw [isChars, tokenize_chars written, isNumber]
  refine ⟨whole, ?_, ?_⟩
  · rw [isChars, parseNumber_chars written, isNumber]
  · intro calculator random unrounded
    have nonempty : shown.isEmpty = false := by
      rw [isChars]
      exact Bool.eq_false_iff.2 (mt String.isEmpty_iff.1 positional.isCanonical_trimmed.nonempty)
    have evaluated := @Calculator.evaluate_operand calculator (.ofNumber shown number) number whole
      nonempty rfl rfl rfl random
    simp only [Settings.reading, unrounded, Precision.round] at evaluated
    exact ⟨_, evaluated, rfl, rfl⟩

/-- The double next to minus eight. -/
theorem display_reads_back_beyond_eight :
    let number := Float.ofBits 0xC020000000000001
    number.isFinite = true ∧ 8 ≤ |value number| ∧
      tokenize "-8.000000000000002" = [.ofNumber "-8.000000000000002" number] ∧
      parseNumber "-8.000000000000002" = .ok number ∧
      ∃ report, ({} : Calculator).evaluate (.cycling []) "-8.000000000000002" =
          (.ok report, {}, .cycling []) ∧
        report.value = number ∧ report.display = some "-8.000000000000002" := by
  intro number
  have finite : number.isFinite = true := by decide +kernel
  have large : 8 ≤ |value number| := by
    rw [abs_value]
    decide +kernel
  have shown : trimFraction (format number) = "-8.000000000000002" := by decide +kernel
  obtain ⟨whole, reads, evaluates⟩ := display_reads_back finite large
  rw [shown] at whole reads evaluates
  exact ⟨finite, large, whole, reads, evaluates {} (.cycling []) rfl⟩

/-- Below eight the display of a double may be nearer to another one. -/
example : parseNumber "7.999999999999996" = .ok (Float.ofBits 0x401FFFFFFFFFFFFB) ∧
    trimFraction (format (Float.ofBits 0x401FFFFFFFFFFFFC)) = "7.999999999999996" := by
  decide +kernel

end Decimal

end Reckoner
