import Reckoner.Binary64

/-!
# Rounding to decimal places

A double is rounded on its exact value, not on a shorter decimal text of it, and a half goes away
from zero. The rounding works with a decimal coefficient of bounded length: the digits of the exact
value, the places asked for, and two more. Places that leave no digit to work with, or more than the
bound, are refused, and so are places whose number of digits is not even a signed number of 64 bits.
-/

set_option autoImplicit false

namespace Reckoner.Decimal

open Binary64

/-- The most digits that the coefficient of a decimal number may have. -/
def maxWorkingDigits : Int := 999999999999999999

/-- The bound that a signed number of 64 bits stays below. -/
def wordBound : Int := 0x8000000000000000

/-- The reasons why a number is not rounded: the places leave a coefficient of no digit or of more
digits than there can be, or a number of digits that cannot be counted in 64 bits. -/
inductive PlacesError where
  | outOfRange
  | beyondWord
  deriving Repr, DecidableEq

/-- What is reported of places that are refused. -/
def PlacesError.message : PlacesError → String
  | outOfRange => "valid range for prec is [1, MAX_PREC]"
  | beyondWord => "the number of digits is no signed number of 64 bits"

/-- The number of decimal places that write a double exactly. -/
def exactPlaces (number : Float) : Nat :=
  (magnitude number).den.log2

def exactDigits (number : Float) : Nat :=
  (Nat.toDigits 10 ((magnitude number).num.natAbs * Nat.pow 5 (exactPlaces number))).length

/-- The digits that rounding to the given places works with. -/
def workingDigits (number : Float) (places : Int) : Int :=
  exactDigits number + places + 2

/-- The reason why a number of digits cannot be worked with, if there is one. -/
def refusal? (digits : Int) : Option PlacesError :=
  if digits < -wordBound || wordBound ≤ digits then some .beyondWord
  else if digits < 1 || maxWorkingDigits < digits then some .outOfRange
  else none

/-- The magnitude nearest to the given one among the multiples of `10 ^ -places`, the larger of
two. -/
def roundMagnitude (magnitude : Rat) (places : Int) : Rat :=
  (roundHalfUp (magnitude * (10 : Rat) ^ places) : Rat) / (10 : Rat) ^ places

/-- A finite double rounded to decimal places, halves away from zero, with its sign kept for a zero;
an infinity or a NaN as it is. A double that has no more places than asked for is its own answer. -/
def roundHalfAway (number : Float) (places : Int) : Except PlacesError Float :=
  if !number.isFinite then .ok number
  else
    match refusal? (workingDigits number places) with
    | some error => .error error
    | none =>
      if (exactPlaces number : Int) ≤ places then .ok number
      else .ok (nearest (isNegative number) (roundMagnitude (magnitude number) places))

/-- A double rounded to a whole number, halves away from zero. Rounding to no places is never
refused, so this needs no answer for that case. -/
def roundToWhole (number : Float) : Float :=
  if !number.isFinite then number
  else if exactPlaces number = 0 then number
  else nearest (isNegative number) (roundMagnitude (magnitude number) 0)

end Reckoner.Decimal
