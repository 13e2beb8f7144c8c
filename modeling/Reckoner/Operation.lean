import Reckoner.ByteUnit
import Reckoner.Decimal.Rounding

/-!
# Operations

What an applied token computes is decided by its text alone. The operations here are those that
compute a number from numbers; assignment, which also needs a name, is not among them.
-/

set_option autoImplicit false

namespace Reckoner

open Binary64

/-- The operations on numbers. A binary one takes a left and a right operand; any other takes the
right one and ignores the left. -/
inductive Operation where
  | add
  | subtract
  | multiply
  | divide
  | power
  | factorial
  | squareRoot
  | absolute
  | logarithm
  | floor
  | ceiling
  | round
  | random
  | sine
  | cosine
  | tangent
  | arcSine
  | arcCosine
  | arcTangent
  | bytes (unit : ByteUnit)
  deriving Repr, DecidableEq

namespace Operation

/-- The operations that are not byte units, with their texts. -/
def named : List (String × Operation) :=
  [("+", add), ("-", subtract), ("*", multiply), ("/", divide), ("^", power), ("!", factorial),
    ("sqrt", squareRoot), ("abs", absolute), ("log", logarithm), ("floor", floor),
    ("ceil", ceiling), ("round", round), ("rand", random), ("sin", sine), ("cos", cosine),
    ("tan", tangent), ("asin", arcSine), ("acos", arcCosine), ("atan", arcTangent)]

def ofText? (text : String) : Option Operation :=
  (named.lookup text).or ((ByteUnit.ofName? text).map bytes)

def isTrigonometric : Operation → Bool
  | sine | cosine | tangent | arcSine | arcCosine | arcTangent => true
  | _ => false

/-- The operations whose result is an angle. They are defined from minus one to one. -/
def isInverse : Operation → Bool
  | arcSine | arcCosine | arcTangent => true
  | _ => false

end Operation

/-- The product of the whole numbers from one to the given one. -/
def productUpTo : Nat → Nat
  | 0 => 1
  | number + 1 => (number + 1) * productUpTo number

/-- The largest number whose factorial is a finite double. -/
def maxFactorial : Int := 170

/-- The factorial of a whole number as a double: one below two, and infinity above the largest
number whose factorial is finite. -/
def factorialOf (number : Int) : Float :=
  if number < 2 then one
  else if maxFactorial < number then infinity false
  else ofInt (productUpTo number.toNat)

/-- The factorial of what a double has before its point; a NaN for a double that is not finite. -/
def factorialOfFloat (number : Float) : Float :=
  if number.isFinite then factorialOf (truncate number) else notANumber

/-- The double nearest to pi. -/
def pi : Float := Float.ofBits 0x400921FB54442D18

/-- The degrees of half a turn. -/
def halfTurn : Float := Float.ofBits 0x4066800000000000

def radians (degrees : Float) : Float :=
  degrees / halfTurn * pi

/-- The exponent of a square root. -/
def half : Float := Float.ofBits 0x3FE0000000000000

/-- The exponent of a square. -/
def two : Float := Float.ofBits 0x4000000000000000

/-- A power. For the exponents minus one, zero, one half, one and two it is the reciprocal, one, the
square root, the base and the square, each rounded once. -/
def powerOf (base exponent : Float) : Float :=
  if exponent == -one then one / base
  else if exponent == zero then one
  else if exponent == half then base.sqrt
  else if exponent == one then base
  else if exponent == two then base * base
  else base.pow exponent

structure Flags where
  divisionByZero : Bool := false
  trigonometricDomain : Bool := false
  deriving Repr, DecidableEq

namespace Operation

/-- What an operation gives for its right operand, after an angle has been changed to radians and
the domain has been looked at. Operations that take more than that operand do not come here. -/
def ofOne : Operation → Float → Float
  | squareRoot, y => y.sqrt
  | absolute, y => y.abs
  | logarithm, y => y.log
  | floor, y => y.floor
  | ceiling, y => y.ceil
  | round, y => Decimal.roundToWhole y
  | factorial, y => factorialOfFloat y
  | bytes unit, y => unit.toBytes y
  | sine, y => y.sin
  | cosine, y => y.cos
  | tangent, y => y.tan
  | arcSine, y => y.asin
  | arcCosine, y => y.acos
  | arcTangent, y => y.atan
  | _, _ => zero

/-- The result of an operation, and the warnings after it. A division by zero and an inverse
function outside its domain give zero and a warning. In degrees the operand of every trigonometric
function, of an inverse one as well, is changed to radians. The number for `random` is the one drawn
for it. -/
def apply (operation : Operation) (inDegrees : Bool) (drawn : Float) (flags : Flags)
    (x y : Float) : Float × Flags :=
  match operation with
  | add => (x + y, flags)
  | subtract => (x - y, flags)
  | multiply => (x * y, flags)
  | power => (powerOf x y, flags)
  | divide => if y == zero then (zero, { flags with divisionByZero := true }) else (x / y, flags)
  | random => (drawn, flags)
  | other =>
    let operand := if other.isTrigonometric && inDegrees then radians y else y
    if other.isInverse && (operand < -one || one < operand) then
      (zero, { flags with trigonometricDomain := true })
    else (other.ofOne operand, flags)

end Operation

end Reckoner
