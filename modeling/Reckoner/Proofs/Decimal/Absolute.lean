import Reckoner.Proofs.Binary64.Absolute
import Reckoner.Proofs.Decimal.Negation

/-!
# Rounding an absolute value

A rounding keeps the sign, so a double and its absolute value are rounded to the same but for it,
and are refused together.
-/

set_option autoImplicit false

namespace Reckoner

open Binary64

namespace Decimal

theorem isNegative_rounded (number : Float) (places : Int) :
    isNegative (rounded number places) = isNegative number := by
  unfold rounded
  split
  · rfl
  · exact isNegative_nearest _ _

theorem roundHalfAway_abs (number : Float) (places : Int) :
    roundHalfAway number.abs places = (roundHalfAway number places).map Float.abs := by
  have kept := isNegative_rounded number places
  cases sign : isNegative number with
  | false =>
    rw [sign] at kept
    rw [abs_of_nonnegative sign, roundHalfAway_eq]
    cases if number.isFinite = true then refusal? (workingDigits number places) else none with
    | some error => rfl
    | none => exact congrArg Except.ok (abs_of_nonnegative kept).symm
  | true =>
    rw [sign] at kept
    rw [abs_of_negative sign, roundHalfAway_neg, roundHalfAway_eq]
    cases if number.isFinite = true then refusal? (workingDigits number places) else none with
    | some error => rfl
    | none => exact congrArg Except.ok (abs_of_negative kept).symm

end Decimal

theorem Precision.round_abs (precision : Precision) (number : Float) :
    precision.round number.abs = (precision.round number).map Float.abs := by
  cases precision with
  | unset => rfl
  | places count => exact Decimal.roundHalfAway_abs number count

end Reckoner
