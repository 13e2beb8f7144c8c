import Reckoner.Settings.Basic
import Reckoner.Numeral
import Reckoner.Text.Case

/-!
# Reading configured values

A configuration may give a setting as a value of any type. A value that can be read as what the
setting needs is used, and any other leaves the setting at its default, so that no malformed entry
spoils the others. One value is not forgiven: an infinity where a whole number is needed.
-/

set_option autoImplicit false

namespace Reckoner

open Text

/-- A double that is infinite, where a whole number is needed. -/
structure InfiniteInteger where
  deriving Repr, DecidableEq

/-- What is reported of an infinity in place of a whole number. -/
def InfiniteInteger.message (_ : InfiniteInteger) : String :=
  "cannot convert float infinity to integer"

namespace Settings

/-- The whole number that a value is or writes: a truth value as one or zero, and a double without
its fraction. -/
def readWhole (raw : Json) : Except InfiniteInteger (Option Int) :=
  match raw with
  | .bool value => .ok (some (if value then 1 else 0))
  | .int value => .ok (some value)
  | .float value =>
    if value.isNaN then .ok none
    else if value.isInf then .error ⟨⟩
    else .ok (some (Binary64.truncate value))
  | .string value => .ok (readInt? value)
  | _ => .ok none

/-- The whole number that a value is read as, and the default for a value that is none or is below
the least one allowed. -/
def coerceInt (raw : Json) (fallback : Int) (least : Option Int) : Except InfiniteInteger Int := do
  match ← readWhole raw with
  | none => return fallback
  | some value => return if least.any (value < ·) then fallback else value

def onWords : List String := ["1", "true", "yes", "on"]

def offWords : List String := ["0", "false", "no", "off"]

/-- The truth value that a value is read as, and the default for a value that is none. -/
def coerceBool (raw : Json) (fallback : Bool) : Bool :=
  match raw with
  | .bool value => value
  | .string value =>
    let word := lowerCase (strip value)
    if onWords.contains word then true
    else if offWords.contains word then false
    else fallback
  | _ => fallback

def coercePrecision (raw : Json) : Except InfiniteInteger Precision := do
  return (Precision.ofInt? (← coerceInt raw (-1) (some (-1)))).getD .unset

def ofConfiguration (members : Json.Members) : Except InfiniteInteger Settings := do
  let operand ← coercePrecision ((members.get? "precision").getD .null)
  let result ← coercePrecision ((members.get? "result_precision").getD .null)
  return ⟨operand, result, .bool (coerceBool ((members.get? "degree").getD .null) false)⟩

end Settings

end Reckoner
