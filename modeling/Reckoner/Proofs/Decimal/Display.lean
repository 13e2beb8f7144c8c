import Reckoner.CommandLine.Run
import Reckoner.Proofs.Completion
import Reckoner.Proofs.Decimal.Repetition
import Reckoner.Proofs.Decimal.Trimmed
import Reckoner.Proofs.Outcome

/-!
# How many decimals of a result are shown

A result that has been rounded to some decimals is a double again, and usually not the decimal but
the double next to it. Shown are the decimals of the result itself, to fifteen places. They are no
more than it was rounded to if the result is within half a unit of the fifteenth place of such a
decimal, as every one below eight is. From eight on they may be more.
-/

set_option autoImplicit false

namespace Reckoner

namespace Binary64

theorem finalPlace_le_of_lt_eight {number : ℚ} (positive : 0 < number)
    (finite : nearestBits number < infinityBits) (small : magnitudeOf (nearestBits number) < 8) :
    finalPlace number ≤ -50 := by
  by_contra coarse
  have above : lowestPlace < finalPlace number := by
    simp only [lowestPlace]
    omega
  have power : (2 : ℚ) ^ binade number < 2 ^ (3 : ℤ) :=
    (two_zpow_binade_le positive finite above).trans_lt (small.trans_eq (by norm_num))
  have exponent := (zpow_lt_zpow_iff_right₀ (by norm_num)).1 power
  simp only [finalPlace, lowestPlace] at coarse
  omega

end Binary64

namespace Decimal

open Binary64

/-- A number is within half a unit of some place of a decimal with fewer places. -/
def NearDecimal (places limit : ℕ) (number : ℚ) : Prop :=
  ∃ count : ℤ, |number - count / 10 ^ limit| ≤ 1 / (2 * 10 ^ places)

theorem nearDecimal_neg {places limit : ℕ} {number : ℚ} :
    NearDecimal places limit (-number) ↔ NearDecimal places limit number := by
  have mirror (number : ℚ) (near : NearDecimal places limit number) :
      NearDecimal places limit (-number) := by
    obtain ⟨count, close⟩ := near
    refine ⟨-count, ?_⟩
    rwa [Int.cast_neg, neg_div, ← neg_sub', abs_neg]
  refine ⟨fun near => ?_, mirror number⟩
  rw [← neg_neg number]
  exact mirror _ near

theorem nearDecimal_value {places limit : ℕ} {number : Float} :
    NearDecimal places limit (value number) ↔ NearDecimal places limit (magnitude number) := by
  unfold value
  split
  · exact nearDecimal_neg
  · exact Iff.rfl

theorem natCast_fixedUnits (places : ℕ) {number : ℚ} (nonneg : 0 ≤ number) :
    (fixedUnits places number : ℤ) = roundHalfEven (number * 10 ^ places) := by
  apply Int.toNat_of_nonneg
  apply le_roundHalfEven
  rw [Int.cast_zero]
  positivity

theorem abs_fixedUnits_sub_le (places : ℕ) {magnitude : ℚ} (nonneg : 0 ≤ magnitude) :
    |(fixedUnits places magnitude : ℚ) / 10 ^ places - magnitude| ≤ 1 / (2 * 10 ^ places) := by
  have unit : (0 : ℚ) < 10 ^ places := by positivity
  have near := abs_roundHalfEven_sub_le_half (magnitude * 10 ^ places)
  rw [← natCast_fixedUnits places nonneg, Int.cast_natCast] at near
  calc |(fixedUnits places magnitude : ℚ) / 10 ^ places - magnitude|
    _ = |(fixedUnits places magnitude : ℚ) - magnitude * 10 ^ places| / 10 ^ places := by
      rw [← abs_of_pos unit, ← abs_div, abs_of_pos unit, sub_div, mul_div_cancel_right₀ _ unit.ne']
    _ ≤ 1 / 2 / 10 ^ places := by gcongr
    _ = 1 / (2 * 10 ^ places) := div_div _ _ _

/-- Rounded to the even one, a number of units ends in zeros if it is near a decimal. -/
theorem dvd_fixedUnits_iff {places limit : ℕ} (most : limit ≤ places) {number : ℚ}
    (nonneg : 0 ≤ number) :
    10 ^ (places - limit) ∣ fixedUnits places number ↔ NearDecimal places limit number := by
  have scale : (0 : ℚ) < 10 ^ places := by positivity
  have split : (10 : ℚ) ^ places = 10 ^ (places - limit) * 10 ^ limit := by
    rw [← pow_add, Nat.sub_add_cancel most]
  have isUnits := natCast_fixedUnits places nonneg
  -- the distance in units of the last place
  have scaled (count : ℤ) : |number - count / 10 ^ limit| ≤ 1 / (2 * 10 ^ places) ↔
      |((count * 10 ^ (places - limit) : ℤ) : ℚ) - number * 10 ^ places| ≤ 1 / 2 := by
    have step : ((count * 10 ^ (places - limit) : ℤ) : ℚ) - number * 10 ^ places =
        -((number - count / 10 ^ limit) * 10 ^ places) := by
      push_cast
      rw [split]
      field_simp
      ring
    rw [step, abs_neg, abs_mul, abs_of_pos scale, ← le_div_iff₀ scale, div_div]
  constructor
  · rintro ⟨count, same⟩
    refine ⟨count, (scaled count).2 ?_⟩
    have near := abs_roundHalfEven_sub_le_half (number * 10 ^ places)
    rwa [← isUnits, same, Nat.mul_comm, Nat.cast_mul, Nat.cast_pow, Nat.cast_ofNat] at near
  · rintro ⟨count, near⟩
    rcases most.eq_or_lt with rfl | fewer
    · rw [Nat.sub_self, Nat.pow_zero]
      exact one_dvd _
    · have even : (2 : ℤ) ∣ count * 10 ^ (places - limit) :=
        Dvd.dvd.mul_left (Dvd.dvd.trans (by decide) (dvd_pow_self 10 (by omega))) _
      have same := roundHalfEven_of_even even ((scaled count).1 near)
      rw [← Int.natCast_dvd_natCast, isUnits, same, Nat.cast_pow, Nat.cast_ofNat]
      exact Dvd.intro_left _ rfl

theorem nearDecimal_of_eq {places limit : ℕ} {number : ℚ} (count : ℤ)
    (same : number = count / 10 ^ limit) : NearDecimal places limit number := by
  refine ⟨count, ?_⟩
  rw [same, sub_self, abs_zero]
  positivity

/-- A double that has no more exact places than some is a decimal with so many. -/
theorem nearDecimal_of_exactPlaces_le {number : Float} (finite : number.isFinite = true)
    {limit : ℕ} (few : exactPlaces number ≤ limit) (places : ℕ) :
    NearDecimal places limit (magnitude number) := by
  refine nearDecimal_of_eq
    ((magnitude number).num * 2 ^ (limit - exactPlaces number) * 5 ^ limit) ?_
  have split : (10 : ℚ) ^ limit = 2 ^ exactPlaces number * 2 ^ (limit - exactPlaces number) *
      5 ^ limit := by
    rw [← pow_add, Nat.add_sub_cancel' few, ← mul_pow]
    norm_num
  calc magnitude number = (magnitude number).num / 2 ^ exactPlaces number :=
        magnitude_eq_div finite
    _ = _ := by
        rw [split]
        push_cast
        field_simp

theorem exists_natCast_of_roundMagnitude_pos {magnitude : ℚ}
    (positive : 0 < roundMagnitude magnitude (0 : ℕ)) :
    ∃ whole : ℕ, roundMagnitude magnitude (0 : ℕ) = whole := by
  rw [roundMagnitude_natCast, pow_zero, div_one] at positive ⊢
  obtain ⟨whole, same⟩ := Int.eq_ofNat_of_zero_le (Int.cast_pos.1 positive).le
  exact ⟨whole, by rw [same, Int.cast_natCast]⟩

/-- The double found for a rounded magnitude is near it below eight, and is itself a whole number if
the magnitude was rounded to one. -/
theorem nearDecimal_nearest {number : Float} {limit : ℕ} (some : 0 < exactPlaces number)
    (small : limit = 0 ∨ magnitudeOf (nearestBits (roundMagnitude (magnitude number) limit)) < 8) :
    NearDecimal writtenPlaces limit
      (magnitudeOf (nearestBits (roundMagnitude (magnitude number) limit))) := by
  have isDecimal := roundMagnitude_natCast (magnitude number) limit
  have below := roundMagnitude_lt (magnitude_le_of_exactPlaces_pos some) limit
  have finite := nearestBits_lt below (by decide)
  rcases le_or_gt (roundMagnitude (magnitude number) limit) 0 with zero | positive
  · rw [nearestBits, if_pos zero]
    exact nearDecimal_of_eq 0 (by simp [magnitudeOf, significand, hiddenBit])
  · rcases small with rfl | small
    · obtain ⟨whole, same⟩ := exists_natCast_of_roundMagnitude_pos positive
      rw [same] at positive below ⊢
      have most : whole < 2 * hiddenBit := by
        have power : (2 : ℚ) ^ (53 : ℤ) = (2 * hiddenBit : ℕ) := by norm_num [hiddenBit]
        rw [power] at below
        exact_mod_cast below
      rw [magnitudeOf_nearestBits_natCast (Nat.cast_pos.1 positive) most]
      exact nearDecimal_of_eq whole (by simp)
    · refine ⟨roundHalfUp (magnitude number * 10 ^ limit), ?_⟩
      rw [← isDecimal]
      calc |magnitudeOf (nearestBits (roundMagnitude (magnitude number) limit)) -
            roundMagnitude (magnitude number) limit|
        _ ≤ 2 ^ finalPlace (roundMagnitude (magnitude number) limit) / 2 :=
          abs_magnitudeOf_nearestBits_sub_le_half positive finite
        _ ≤ 2 ^ (-50 : ℤ) / 2 := by
          have fine := finalPlace_le_of_lt_eight positive finite small
          gcongr
          norm_num
        _ ≤ 1 / (2 * 10 ^ writtenPlaces) := by norm_num [writtenPlaces]

theorem nearDecimal_rounded {number : Float} {limit : ℕ}
    (finite : (rounded number limit).isFinite = true)
    (small : limit = 0 ∨ magnitude (rounded number limit) < 8) :
    NearDecimal writtenPlaces limit (magnitude (rounded number limit)) := by
  by_cases kept : (!number.isFinite || (exactPlaces number : ℤ) ≤ limit) = true
  · have same : rounded number limit = number := if_pos kept
    rw [same] at finite ⊢
    rw [finite] at kept
    exact nearDecimal_of_exactPlaces_le finite (by simpa using kept) writtenPlaces
  · have isNearest : rounded number limit =
        nearest (isNegative number) (roundMagnitude (magnitude number) limit) := if_neg kept
    have some : 0 < exactPlaces number := by
      simp only [Bool.or_eq_true, decide_eq_true_eq, not_or] at kept
      omega
    rw [isNearest, magnitude, magnitudeBits_nearest] at small ⊢
    exact nearDecimal_nearest some small

end Decimal

namespace Calculator

/-- What is reported is the value on top of the stack, rounded to the precision of results, and its
written form if the last thing done was no definition. -/
theorem report_of_evaluate {calculator : Calculator} {random : RandomSource} {text : String}
    {report : Report} (evaluated : (calculator.evaluate random text).1 = .ok report) :
    (∃ number, calculator.settings.resultPrecision.round number = .ok report.value) ∧
      (report.definesVariable = false → report.output = some (Decimal.format report.value)) := by
  obtain ⟨after, number, value, -, -, rounded, rfl, -⟩ := exists_of_evaluate evaluated
  refine ⟨⟨number, rounded⟩, ?_⟩
  intro noVariable
  rw [definesVariable_report] at noVariable
  simpa [report] using noVariable

/-- A finite result that has been rounded to some decimals is displayed with no more decimals if it
is within half a unit of the fifteenth place of such a decimal, and only then. So it is for whole
numbers, for fifteen decimals, and below eight. -/
theorem decimals_displayed (calculator : Calculator) (random : RandomSource) (text : String)
    {places : ℕ} (rounds : calculator.settings.resultPrecision = .places places)
    (most : places ≤ Decimal.writtenPlaces) {report : Report}
    (evaluated : (calculator.evaluate random text).1 = .ok report)
    (finite : report.value.isFinite = true) (noVariable : report.definesVariable = false) :
    ∃ shown, report.display = some shown ∧
      (∀ invocation : CommandLine.Invocation, invocation.json = false →
        (CommandLine.answerLines invocation report).getLast? = some shown) ∧
      ((Decimal.fractionChars shown).length ≤ places ↔
        Decimal.NearDecimal Decimal.writtenPlaces places (Binary64.value report.value)) ∧
      (places = 0 ∨ places = Decimal.writtenPlaces ∨ |Binary64.value report.value| < 8 →
        (Decimal.fractionChars shown).length ≤ places) := by
  obtain ⟨⟨number, rounded⟩, isFormat⟩ := report_of_evaluate evaluated
  rw [rounds] at rounded
  have isRounded := Decimal.rounded_of_ok rounded
  have few := (Decimal.length_fractionChars_fixed_le_iff finite most).trans
    ((Decimal.dvd_fixedUnits_iff most (Binary64.magnitude_nonneg _)).trans
      Decimal.nearDecimal_value.symm)
  have display : report.display = some (Decimal.trimFraction (Decimal.format report.value)) :=
    congrArg (Option.map Decimal.trimFraction) (isFormat noVariable)
  refine ⟨_, display, ?_, few, ?_⟩
  · intro invocation plain
    rw [CommandLine.answerLines, plain, display]
    exact List.getLast?_concat
  · rintro (whole | all | small)
    · have near := Decimal.nearDecimal_rounded (isRounded ▸ finite) (.inl whole)
      rw [isRounded] at near
      exact few.2 (Decimal.nearDecimal_value.2 near)
    · apply (Decimal.length_fractionChars_fixed_le_iff finite most).2
      rw [all, Nat.sub_self, Nat.pow_zero]
      exact one_dvd _
    · rw [Decimal.abs_value, ← isRounded] at small
      have near := Decimal.nearDecimal_rounded (isRounded ▸ finite) (.inr small)
      rw [isRounded] at near
      exact few.2 (Decimal.nearDecimal_value.2 near)

/-- What a report shows of its value. -/
def shownOf (outcome : Except EvaluationFailure Report) : Option (Bool × Bool × Option String) :=
  outcome.toOption.map fun report =>
    (report.value.isFinite, report.definesVariable, report.display)

theorem exists_of_shownOf {outcome : Except EvaluationFailure Report} {finite noValue : Bool}
    {display : Option String} (shown : shownOf outcome = some (finite, noValue, display)) :
    ∃ report, outcome = .ok report ∧ report.value.isFinite = finite ∧
      report.definesVariable = noValue ∧ report.display = display := by
  cases outcome with
  | error failure => cases shown
  | ok report =>
    cases shown
    exact ⟨report, rfl, rfl, rfl, rfl⟩

/-- Two thirds to two decimals. -/
theorem decimals_displayed_of_two_thirds :
    let calculator : Calculator := { settings := { resultPrecision := .places 2 } }
    ∃ report, (calculator.evaluate (.cycling []) "2/3").1 = .ok report ∧
      report.value.isFinite = true ∧ report.definesVariable = false ∧
      report.display = some "0.67" ∧ (Decimal.fractionChars "0.67").length ≤ 2 := by
  intro calculator
  have shown : shownOf (calculator.evaluate (.cycling []) "2/3").1 =
      some (true, false, some "0.67") := by decide +kernel
  obtain ⟨report, evaluated, finite, noVariable, display⟩ := exists_of_shownOf shown
  obtain ⟨text, isText, -, -, few⟩ :=
    decimals_displayed calculator (.cycling []) "2/3" rfl (by decide) evaluated finite noVariable
  rw [display] at isText
  obtain rfl := Option.some.inj isText
  have small : ((calculator.evaluate (.cycling []) "2/3").1.toOption.any fun report =>
      Binary64.magnitude report.value < 8) = true := by decide +kernel
  rw [evaluated] at small
  refine ⟨report, evaluated, finite, noVariable, display, few (.inr (.inr ?_))⟩
  rw [Decimal.abs_value]
  exact of_decide_eq_true small

/-- From eight on a double may be too far from its decimal to be displayed as it. -/
theorem decimals_displayed_beyond_eight :
    let calculator : Calculator := { settings := { resultPrecision := .places 1 } }
    ∃ report, (calculator.evaluate (.cycling []) "8.3").1 = .ok report ∧
      report.value.isFinite = true ∧ report.definesVariable = false ∧
      report.display = some "8.300000000000001" ∧
      ¬ (Decimal.fractionChars "8.300000000000001").length ≤ 1 := by
  intro calculator
  have shown : shownOf (calculator.evaluate (.cycling []) "8.3").1 =
      some (true, false, some "8.300000000000001") := by decide +kernel
  obtain ⟨report, evaluated, finite, noVariable, display⟩ := exists_of_shownOf shown
  exact ⟨report, evaluated, finite, noVariable, display, by decide⟩

end Calculator

end Reckoner
