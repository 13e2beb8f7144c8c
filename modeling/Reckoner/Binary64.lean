/-!
# Doubles as exact numbers

A finite double is a sign and a magnitude, and the magnitude is a whole number of units in its last
place. This module reads that rational number off the bits and finds, for any rational number, the
double nearest to it. The bit patterns without the sign, taken as natural numbers, are in the order
of the magnitudes they stand for, and the pattern after the largest finite one is infinity's: so
rounding up never needs a case of its own.

Nothing here is asserted of a NaN; its sign and magnitude are those of its bits.
-/

set_option autoImplicit false

namespace Reckoner.Binary64

/-- `2 ^ 52`: the bit that a normal double's fraction leaves out. -/
def hiddenBit : Nat := 4503599627370496

/-- `2 ^ 63`: the weight of the sign bit. -/
def signBit : Nat := 9223372036854775808

/-- The bits of positive infinity: a full exponent and an empty fraction. -/
def infinityBits : Nat := 9218868437227405312

/-- The exponent of the last place of the smallest doubles. -/
def lowestPlace : Int := -1074

def isNegative (number : Float) : Bool :=
  signBit ≤ number.toBits.toNat

/-- The bits of a double without its sign. -/
def magnitudeBits (number : Float) : Nat :=
  number.toBits.toNat % signBit

/-- The magnitude that bits without a sign stand for, in units of their last place. -/
def significand (bits : Nat) : Nat :=
  if bits < hiddenBit then bits else hiddenBit + bits % hiddenBit

/-- The power of two that one unit in the last place is worth. -/
def place (bits : Nat) : Int :=
  if bits < hiddenBit then lowestPlace else lowestPlace + (bits / hiddenBit - 1 : Nat)

/-- The exact number that bits without a sign stand for. -/
def magnitudeOf (bits : Nat) : Rat :=
  (significand bits : Rat) * (2 : Rat) ^ place bits

def magnitude (number : Float) : Rat :=
  magnitudeOf (magnitudeBits number)

def value (number : Float) : Rat :=
  if isNegative number then -magnitude number else magnitude number

/-- The double with the given sign and the given other bits. -/
def ofMagnitudeBits (negative : Bool) (bits : Nat) : Float :=
  Float.ofBits (UInt64.ofNat (if negative then signBit + bits else bits))

/-- Positive zero. -/
def zero : Float := Float.ofBits 0

/-- The number one. -/
def one : Float := Float.ofBits 4607182418800017408

def infinity (negative : Bool) : Float := ofMagnitudeBits negative infinityBits

/-- The number that no comparison holds of. -/
def notANumber : Float := Float.ofBits 9221120237041090560

/-- The whole number nearest to a rational number, and of two the even one. -/
def roundHalfEven (number : Rat) : Int :=
  let below := number.floor
  let rest := number - below
  if rest < 1 / 2 then below
  else if 1 / 2 < rest then below + 1
  else if below % 2 = 0 then below
  else below + 1

/-- The whole number nearest to a rational number that is not negative, and of two the larger. -/
def roundHalfUp (number : Rat) : Int :=
  (number + 1 / 2).floor

/-- The largest exponent of a power of two that is at most the given positive number. -/
def binade (number : Rat) : Int :=
  let estimate : Int := (number.num.natAbs.log2 : Int) - (number.den.log2 : Int)
  if (2 : Rat) ^ estimate ≤ number then estimate else estimate - 1

/-- The bits of the double nearest to a positive number, and of two the one whose last bit is clear;
infinity's for a number beyond the finite doubles. -/
def nearestBits (number : Rat) : Nat :=
  if number ≤ 0 then 0
  else
    let last := max lowestPlace (binade number - 52)
    let units := (roundHalfEven (number / (2 : Rat) ^ last)).toNat
    min infinityBits ((last - lowestPlace).toNat * hiddenBit + units)

/-- The double of the given sign whose magnitude is nearest to the given one. -/
def nearest (negative : Bool) (magnitude : Rat) : Float :=
  ofMagnitudeBits negative (nearestBits magnitude)

/-- The double of the given sign nearest to `digits * 10 ^ exponent`. An exponent so large or so
small that the answer is infinity or zero for every other digit is settled without the power. -/
def ofDecimal (negative : Bool) (digits : Nat) (exponent : Int) : Float :=
  if digits = 0 then ofMagnitudeBits negative 0
  else if 400 < exponent then infinity negative
  else if (digits.log2 : Int) + 1080 < 3 * -exponent then ofMagnitudeBits negative 0
  else nearest negative ((digits : Rat) * (10 : Rat) ^ exponent)

/-- The double nearest to a whole number. -/
def ofInt (number : Int) : Float :=
  nearest (number < 0) (number.natAbs : Rat)

/-- The whole number that a finite double has before its point. -/
def truncate (number : Float) : Int :=
  if isNegative number then -(magnitude number).floor else (magnitude number).floor

end Reckoner.Binary64
