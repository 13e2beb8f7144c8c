import Reckoner.Proofs.Binary64.Negation
import Reckoner.Proofs.Decimal.Repetition

/-!
# Rounding a negated double

Halves go away from zero, so a rounding treats both signs alike: it rounds the negated double to the
negated result, and is refused for both or for neither. Minus one is rounded to itself.
-/

set_option autoImplicit false

namespace Reckoner

open Binary64

namespace Decimal

theorem exactPlaces_neg (number : Float) : exactPlaces (-number) = exactPlaces number := by
  rw [exactPlaces, exactPlaces, magnitude_neg]

theorem workingDigits_neg (number : Float) (places : Int) :
    workingDigits (-number) places = workingDigits number places := by
  unfold workingDigits exactDigits
  rw [exactPlaces_neg, magnitude_neg]

theorem nearest_not (negative : Bool) (number : ℚ) :
    nearest (!negative) number = -nearest negative number := by
  rw [nearest, nearest, neg_ofMagnitudeBits _ (nearestBits_le number)]

theorem rounded_neg (number : Float) (places : Int) :
    rounded (-number) places = -rounded number places := by
  unfold rounded
  rw [isFinite_neg, exactPlaces_neg, magnitude_neg]
  split
  · rfl
  · rename_i changed
    have finite : number.isFinite = true := by
      by_contra infinite
      simp [infinite] at changed
    rw [isNegative_neg (Nat.le_of_lt ((isFinite_iff number).1 finite)), nearest_not]

theorem roundHalfAway_neg (number : Float) (places : Int) :
    roundHalfAway (-number) places = (roundHalfAway number places).map fun result => -result := by
  rw [roundHalfAway_eq, roundHalfAway_eq, isFinite_neg, workingDigits_neg, rounded_neg]
  cases if number.isFinite = true then refusal? (workingDigits number places) else none with
  | some error => rfl
  | none => rfl

end Decimal

namespace Precision

variable {precision : Precision}

theorem round_neg {number result : Float} (ok : precision.round number = .ok result) :
    precision.round (-number) = .ok (-result) := by
  cases precision with
  | unset => exact congrArg (fun number => Except.ok (-number)) (Except.ok.inj ok)
  | places count =>
    have same : Decimal.roundHalfAway number count = .ok result := ok
    rw [round, Decimal.roundHalfAway_neg, same]
    rfl

theorem round_neg_one {result : Float} (ok : precision.round (-one) = .ok result) :
    result = -one := by
  cases precision with
  | unset => exact (Except.ok.inj ok).symm
  | places count =>
    have whole : Decimal.exactPlaces (-one) = 0 := by decide +kernel
    rw [← Decimal.rounded_of_ok ok, Decimal.rounded_of_exactPlaces_le]
    omega

end Precision

end Reckoner
