import Reckoner.Binary64

/-!
# Numbers with fixed decimal places

A result is written with a fixed number of places, rounded to the nearest on the exact value of the
double and to the even digit on a tie. For display the zeros at the end of its fraction are dropped.
-/

set_option autoImplicit false

namespace Reckoner.Decimal

open Binary64

/-- The decimal places of a written result. -/
def writtenPlaces : Nat := 15

/-- The decimal digits of a number, with zeros in front up to a width. -/
def paddedDigits (width number : Nat) : List Char :=
  let digits := Nat.toDigits 10 number
  List.replicate (width - digits.length) '0' ++ digits

/-- A number of units in the last of some places, written with a point before those places. -/
def placePoint (places units : Nat) : List Char :=
  let digits := paddedDigits (places + 1) units
  digits.take (digits.length - places) ++ '.' :: digits.drop (digits.length - places)

/-- The units in the last of some places that are nearest to a magnitude, the even one on a tie. -/
def fixedUnits (places : Nat) (magnitude : Rat) : Nat :=
  (roundHalfEven (magnitude * (10 : Rat) ^ places)).toNat

/-- A double written with fixed places. The sign is written whenever it is set, also of a zero. -/
def fixed (places : Nat) (number : Float) : String :=
  if number.isNaN then "nan"
  else
    let sign := if isNegative number then ['-'] else []
    if number.isInf then String.ofList (sign ++ "inf".toList)
    else String.ofList (sign ++ placePoint places (fixedUnits places (magnitude number)))

def format (number : Float) : String :=
  fixed writtenPlaces number

/-- The characters without those of a class at the end. -/
def dropTrailing (member : Char → Bool) (characters : List Char) : List Char :=
  (characters.reverse.dropWhile member).reverse

/-- A written number without the zeros at the end of its fraction, and without a point that nothing
follows; what is left of a zero is `0`. A text without a point stays as it is. -/
def trimFraction (text : String) : String :=
  let characters := text.toList
  if !characters.contains '.' then text
  else
    let trimmed := dropTrailing (· == '.') (dropTrailing (· == '0') characters)
    if trimmed = [] || trimmed = ['-', '0'] then "0" else String.ofList trimmed

end Reckoner.Decimal
