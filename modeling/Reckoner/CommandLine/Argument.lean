import Reckoner.CommandLine.Switch
import Reckoner.Settings.Basic
import Reckoner.Text.Digit
import Reckoner.Text.Quoted

/-!
# Arguments

Each argument of the command line is told apart by its form, before any of them takes effect. An
argument that begins with a dash is a switch, unless it is a negative number or holds a space; after
two dashes that stand alone every argument is an expression.
-/

set_option autoImplicit false

namespace Reckoner.CommandLine

open Text

inductive UsageError where
  | ambiguous (argument : String) (spellings : List String)
  | missingValue (switch : Switch)
  | notAnInteger (switch : Switch) (value : String)
  | ignoredValue (switch : Switch) (value : String)
  | unrecognized (arguments : List String)
  | settings (error : SettingsError)
  deriving Repr, DecidableEq

def aboutSwitch (switch : Switch) (complaint : String) : String :=
  "argument " ++ switch.title ++ ": " ++ complaint

def UsageError.message : UsageError → String
  | ambiguous argument spellings =>
    "ambiguous option: " ++ argument ++ " could match " ++ String.intercalate ", " spellings
  | missingValue switch => aboutSwitch switch "expected one argument"
  | notAnInteger switch value => aboutSwitch switch ("invalid int value: " ++ quoted value)
  | ignoredValue switch value => aboutSwitch switch ("ignored explicit argument " ++ quoted value)
  | unrecognized arguments => "unrecognized arguments: " ++ String.intercalate " " arguments
  | settings error => error.message

/-- An argument by its form: the two dashes that end the switches, an expression, a switch with the
value that was attached to it, the letter for help with something attached, or none of these. -/
inductive Argument where
  | separator
  | expression (text : String)
  | switch (switch : Switch) (attached : Option String)
  | helpWith (attached : List Char)
  | unknown (text : String)
  deriving Repr, DecidableEq

/-- The argument that ends the switches. -/
def separatorText : String := "--"

def helpLetter : Char := 'h'

/-- A point and digits, or digits alone, or both. -/
def isUnsignedNumber (characters : List Char) : Bool :=
  match characters.dropWhile isDigit with
  | [] => !characters.isEmpty
  | '.' :: fraction => !fraction.isEmpty && fraction.all isDigit
  | _ => false

/-- A negative number without an exponent; a line break may end it. -/
def isNegativeNumber (characters : List Char) : Bool :=
  match characters with
  | '-' :: number =>
    isUnsignedNumber (if number.getLast? = some '\n' then number.dropLast else number)
  | _ => false

/-- What stands in front of the first equals sign, and what stands after it. -/
def splitValue (characters : List Char) : String × Option String :=
  let name := String.ofList (characters.takeWhile (· ≠ '='))
  match characters.dropWhile (· ≠ '=') with
  | [] => (name, none)
  | _ :: value => (name, some (String.ofList value))

/-- The form of an argument that begins with a dash and spells no switch. -/
def unspelt (text : String) : Argument :=
  if isNegativeNumber text.toList || text.toList.contains ' ' then .expression text
  else .unknown text

/-- The form of an argument that begins with a dash followed by more characters. -/
def ofDashed (text : String) (second : Char) (tail : List Char) : Except UsageError Argument :=
  let (name, attached) := splitValue text.toList
  match Switch.ofSpelling? text, attached, Switch.ofSpelling? name with
  | some switch, _, _ => .ok (.switch switch none)
  | none, some value, some switch =>
    if second = '-' then .ok (.switch switch (some value)) else .ok (.helpWith value.toList)
  | none, _, _ =>
    if second = '-' then
      match Switch.beginningWith name with
      | [] => .ok (unspelt text)
      | [(_, switch)] => .ok (.switch switch attached)
      | several => .error (.ambiguous text (several.map (·.1)))
    else if second = helpLetter then .ok (.helpWith tail)
    else .ok (unspelt text)

/-- The form of an argument in front of the end of the switches. -/
def Argument.ofText (text : String) : Except UsageError Argument :=
  match text.toList with
  | '-' :: second :: tail => ofDashed text second tail
  | _ => .ok (.expression text)

/-- The forms of all arguments. -/
def Argument.ofTexts : List String → Except UsageError (List Argument)
  | [] => .ok []
  | text :: rest => do
    if text = separatorText then return .separator :: rest.map .expression
    else return (← ofText text) :: (← ofTexts rest)

end Reckoner.CommandLine
