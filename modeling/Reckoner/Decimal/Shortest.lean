import Reckoner.Binary64

/-!
# Shortest decimal numbers

The fewest decimal digits that read back as a given double. The reals that round to a double form an
interval whose ends are the midpoints to its two neighbours, and the ends belong to it exactly when
the double's last bit is clear. If a decimal grid has a point in the interval then one of the two
grid points around the double is in it, so only those two are tried, on finer and finer grids.
-/

set_option autoImplicit false

namespace Reckoner.Decimal

open Binary64

/-- A decimal number: a whole number of units of a power of ten. -/
structure Scaled where
  digits : Nat
  exponent : Int
  deriving Repr, DecidableEq

def Scaled.value (number : Scaled) : Rat :=
  (number.digits : Rat) * (10 : Rat) ^ number.exponent

/-- The largest exponent of a power of ten that is at most the given positive number. -/
def decade (number : Rat) : Int :=
  let estimate : Int :=
    ((Nat.toDigits 10 number.num.natAbs).length : Int) - ((Nat.toDigits 10 number.den).length : Int)
  if (10 : Rat) ^ estimate ≤ number then estimate else estimate - 1

def roundsTo (bits : Nat) (number : Rat) : Bool :=
  let lower := (magnitudeOf (bits - 1) + magnitudeOf bits) / 2
  let upper := (magnitudeOf bits + magnitudeOf (bits + 1)) / 2
  if bits % 2 = 0 then lower ≤ number && number ≤ upper
  else lower < number && number < upper

/-- The point nearest to a double on the grid that gives it a number of digits, if that point reads
back as the double, and otherwise the grid's point on the other side, if that one does. -/
def candidate? (bits : Nat) (digits : Nat) : Option Scaled :=
  let number := magnitudeOf bits
  let exponent := decade number - digits + 1
  let scaled := number / (10 : Rat) ^ exponent
  let near := roundHalfEven scaled
  let below := scaled.floor
  let far := if near = below then below + 1 else below
  let reading? (units : Int) : Option Scaled :=
    if roundsTo bits ((units : Rat) * (10 : Rat) ^ exponent) then some ⟨units.toNat, exponent⟩
    else none
  (reading? near).or (reading? far)

/-- The shortest decimal number that reads back as the double with the given bits, which are not
zero: the nearest of those with the fewest digits. Seventeen digits always do. -/
def shortest (bits : Nat) : Scaled :=
  ((List.range 17).findSome? fun digits => candidate? bits (digits + 1)).getD ⟨0, 0⟩

end Reckoner.Decimal
