import Reckoner.Json.Basic
import Reckoner.Decimal.Rounding

/-!
# Calculator settings

A calculator rounds its operands and intermediate results to one precision and its final result to
another, or to none, and measures angles in radians or in degrees. From outside a precision is the
number `-1` for none or the number of decimal places. The degree switch keeps whatever value it was
given, and it is on when that value counts as given. Members that settings are read from may have no
other names than those of the settings.
-/

set_option autoImplicit false

namespace Reckoner

/-- How many decimal places a number is rounded to, if it is rounded. -/
inductive Precision where
  | unset
  | places (count : Nat)
  deriving Repr, DecidableEq

namespace Precision

def toInt : Precision → Int
  | unset => -1
  | places count => count

def ofInt? (number : Int) : Option Precision :=
  if number = -1 then some unset
  else if 0 ≤ number then some (places number.toNat)
  else none

theorem ofInt?_toInt (precision : Precision) : ofInt? precision.toInt = some precision := by
  cases precision with
  | unset => rfl
  | places count => simp [toInt, ofInt?]

def round (precision : Precision) (number : Float) : Except Decimal.PlacesError Float :=
  match precision with
  | unset => .ok number
  | places count => Decimal.roundHalfAway number count

end Precision

structure Settings where
  precision : Precision := .unset
  resultPrecision : Precision := .unset
  degree : Json := .bool false
  deriving Repr

/-- The two settings that are precisions. -/
inductive PrecisionField where
  | operand
  | result
  deriving Repr, DecidableEq

def PrecisionField.name : PrecisionField → String
  | operand => "precision"
  | result => "result_precision"

inductive SettingsError where
  | unknown (name : String)
  | notAnInteger (field : PrecisionField)
  | outOfRange (field : PrecisionField)
  deriving Repr, DecidableEq

def SettingsError.message : SettingsError → String
  | unknown name => name ++ " is no setting"
  | notAnInteger field => field.name ++ " must be an integer"
  | outOfRange field => field.name ++ " must be -1 (unset) or a non-negative integer"

namespace Settings

def inDegrees (settings : Settings) : Bool :=
  settings.degree.truthy

def readPrecision (field : PrecisionField) : Json → Except SettingsError Precision
  | .int number =>
    match Precision.ofInt? number with
    | some precision => .ok precision
    | none => .error (.outOfRange field)
  | _ => .error (.notAnInteger field)

/-- The settings that values give; the operands' precision is looked at first. -/
def ofValues (precision resultPrecision degree : Json) : Except SettingsError Settings := do
  let operand ← readPrecision .operand precision
  let result ← readPrecision .result resultPrecision
  return ⟨operand, result, degree⟩

def toJson (settings : Settings) : Json :=
  .object [("precision", .int settings.precision.toInt),
    ("result_precision", .int settings.resultPrecision.toInt),
    ("degree", settings.degree)]

/-- A value, or another one in place of null. -/
def given (value fallback : Json) : Json :=
  match value with
  | .null => fallback
  | other => other

def names : List String :=
  [PrecisionField.operand.name, PrecisionField.result.name, "degree"]

/-- Members of which the first one that is no setting, if there is one, is refused. -/
def onlyKnown (members : Json.Members) : Except SettingsError Json.Members :=
  match members.find? fun member => !names.contains member.1 with
  | some (name, _) => .error (.unknown name)
  | none => .ok members

/-- The settings that members give; a missing one has its default, a null one is taken as it is. -/
def ofMembers (members : Json.Members) : Except SettingsError Settings := do
  let known ← onlyKnown members
  ofValues ((known.get? "precision").getD (.int (-1)))
    ((known.get? "result_precision").getD (.int (-1)))
    ((known.get? "degree").getD (.bool false))

/-- The settings with those replaced that have a value other than null. -/
def override (settings : Settings) (precision resultPrecision degree : Json) :
    Except SettingsError Settings :=
  ofValues (given precision (.int settings.precision.toInt))
    (given resultPrecision (.int settings.resultPrecision.toInt))
    (given degree settings.degree)

/-- The settings with those replaced that members give a value other than null. A null member may
have any name. -/
def overrideMembers (settings : Settings) (members : Json.Members) :
    Except SettingsError Settings := do
  let known ← onlyKnown (members.filter fun member => member.2.kind ≠ .null)
  settings.override ((known.get? "precision").getD .null)
    ((known.get? "result_precision").getD .null) ((known.get? "degree").getD .null)

end Settings

end Reckoner
