import Reckoner.Json.Basic
import Reckoner.Numeral

/-!
# Numbers given as JSON values

A number may be given as a value of several types: as a double, as a whole number, as a truth value,
which counts as one or zero, or as a text that writes it.
-/

set_option autoImplicit false

namespace Reckoner

/-- The reasons why a value is read as no number. -/
inductive NumberError where
  | refused (numeral : RefusedNumeral)
  | tooLarge
  | notANumber (found : Json.Kind)
  deriving Repr, DecidableEq

/-- What is reported of a value that is read as no number. -/
def NumberError.message : NumberError → String
  | refused numeral => numeral.message
  | tooLarge => "int too large to convert to float"
  | notANumber found => "a number is needed, not " ++ found.name

namespace Json

/-- The double nearest to a whole number, unless that is infinite. -/
def wholeToFloat (number : Int) : Except NumberError Float :=
  let nearest := Binary64.ofInt number
  if nearest.isInf then .error .tooLarge else .ok nearest

def readNumber : Json → Except NumberError Float
  | bool value => .ok (if value then Binary64.one else Binary64.zero)
  | int value => wholeToFloat value
  | float value => .ok value
  | string value =>
    match readFloat? value with
    | some number => .ok number
    | none => .error (.refused ⟨value⟩)
  | value => .error (.notANumber value.kind)

end Json

end Reckoner
