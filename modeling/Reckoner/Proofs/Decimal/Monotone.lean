import Reckoner.Proofs.Decimal.Negation
import Reckoner.Proofs.Decimal.Quantum

/-!
# Rounding in the order of numbers

A rounding goes through two others, to a decimal number and from there to a double, and both respect
the order of magnitudes and leave zero where it is. So the rounding of doubles respects their order,
across zero as well, however many digits each of them is worked with.
-/

set_option autoImplicit false

namespace Reckoner

namespace Binary64

/-- A map of magnitudes that respects their order and fixes zero respects the order of the numbers
with signs. -/
theorem withSign_map_le (map : ℚ → ℚ) (zero : map 0 = 0)
    (mono : ∀ less more : ℚ, 0 ≤ less → less ≤ more → map less ≤ map more) {negative other : Bool}
    {left right : ℚ} (leftNonneg : 0 ≤ left) (rightNonneg : 0 ≤ right)
    (le : withSign negative left ≤ withSign other right) :
    withSign negative (map left) ≤ withSign other (map right) := by
  have leftMap := mono 0 left le_rfl leftNonneg
  have rightMap := mono 0 right le_rfl rightNonneg
  rw [zero] at leftMap rightMap
  cases negative with
  | false =>
    cases other with
    | false => exact mono left right leftNonneg le
    | true =>
      -- a number that is not negative is at most a negative one only if both are zero
      have leftOf : left ≤ -right := le
      have leftZero : left = 0 := by linarith
      have rightZero : right = 0 := by linarith
      rw [leftZero, rightZero, zero]
      exact le_of_eq neg_zero.symm
  | true =>
    cases other with
    | false => exact (neg_nonpos.2 leftMap).trans rightMap
    | true => exact neg_le_neg (mono right left rightNonneg (neg_le_neg_iff.1 le))

end Binary64

namespace Decimal

open Binary64

theorem roundHalfUp_mono {less more : ℚ} (le : less ≤ more) : roundHalfUp less ≤ roundHalfUp more :=
  Int.floor_mono (add_le_add_left le (1 / 2))

theorem roundMagnitude_mono (places : ℤ) {less more : ℚ} (le : less ≤ more) :
    roundMagnitude less places ≤ roundMagnitude more places := by
  have units : roundHalfUp (less * 10 ^ places) ≤ roundHalfUp (more * 10 ^ places) := by
    apply roundHalfUp_mono
    gcongr
  unfold roundMagnitude
  gcongr

theorem value_rounded {number : Float} (finite : number.isFinite = true) (places : ℤ) :
    value (rounded number places) = withSign (isNegative number)
      (magnitudeOf (nearestBits (roundMagnitude (magnitude number) places))) := by
  rw [rounded_eq_nearest finite, value_nearest]

theorem isNaN_rounded {number : Float} (finite : number.isFinite = true) (places : ℤ) :
    (rounded number places).isNaN = false := by
  rw [rounded_eq_nearest finite, isNaN_nearest]

theorem rounded_mono {left right : Float} (leftFinite : left.isFinite = true)
    (rightFinite : right.isFinite = true) (le : left ≤ right) (places : ℤ) :
    rounded left places ≤ rounded right places := by
  rw [le_iff_value_le (isNaN_of_isFinite leftFinite) (isNaN_of_isFinite rightFinite)] at le
  rw [le_iff_value_le (isNaN_rounded leftFinite places) (isNaN_rounded rightFinite places),
    value_rounded leftFinite, value_rounded rightFinite]
  refine withSign_map_le (fun number => magnitudeOf (nearestBits (roundMagnitude number places)))
    ?_ ?_ (magnitude_nonneg left) (magnitude_nonneg right) le
  · simp only [roundMagnitude_zero, nearestBits_zero, magnitudeOf_zero]
  · intro less more nonneg le
    exact magnitudeOf_strictMono.monotone
      (nearestBits_mono (roundMagnitude_nonneg nonneg places) (roundMagnitude_mono places le))

/-- Roundings to the same places keep the order of finite doubles, and the rounding of the negated
double is the negated rounding, with the signs of zeros. -/
theorem rounding_respects_order {left right : Float} (leftFinite : left.isFinite = true)
    (rightFinite : right.isFinite = true) (le : left ≤ right) (places : ℕ) :
    (∀ first second, roundHalfAway left places = .ok first →
        roundHalfAway right places = .ok second → first ≤ second) ∧
      (Workable places → ∃ first second, roundHalfAway left places = .ok first ∧
        roundHalfAway right places = .ok second) ∧
      ∀ number : Float, roundHalfAway (-number) places =
        (roundHalfAway number places).map fun result => -result := by
  refine ⟨?_, fun workable => ?_, fun number => roundHalfAway_neg number places⟩
  · intro first second isFirst isSecond
    rw [← rounded_of_ok isFirst, ← rounded_of_ok isSecond]
    exact rounded_mono leftFinite rightFinite le places
  · exact ⟨_, _, roundHalfAway_of_workable left workable, roundHalfAway_of_workable right workable⟩

/-- Minus one half is rounded away from zero, and minus one quarter to a zero. -/
theorem rounding_respects_order_of_half :
    let left := Float.ofBits 0xBFE0000000000000
    let right := Float.ofBits 0xBFD0000000000000
    left.isFinite = true ∧ right.isFinite = true ∧ left ≤ right ∧
      ∃ first second, roundHalfAway left 0 = .ok first ∧ roundHalfAway right 0 = .ok second ∧
        first ≤ second := by
  intro left right
  have leftFinite : left.isFinite = true := by decide +kernel
  have rightFinite : right.isFinite = true := by decide +kernel
  have le : left ≤ right := by decide +kernel
  obtain ⟨ordered, accepted, -⟩ := rounding_respects_order leftFinite rightFinite le 0
  obtain ⟨first, second, isFirst, isSecond⟩ := accepted (by decide)
  exact ⟨leftFinite, rightFinite, le, first, second, isFirst, isSecond,
    ordered _ _ isFirst isSecond⟩

end Decimal

end Reckoner
