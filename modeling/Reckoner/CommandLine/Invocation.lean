import Reckoner.CommandLine.Argument
import Reckoner.Numeral

/-!
# Invocations

What a command line asks for. Its switches take effect in their order, and the first one that asks
for help ends the reading. Expressions have to stand next to each other: those that follow a switch
after the first expression are not recognized.
-/

set_option autoImplicit false

namespace Reckoner.CommandLine

/-- The values of the switches, and the expressions. A precision is absent if its switch was given
the end of the switches for a value. -/
structure Invocation where
  precision : Option Int := some (-1)
  resultPrecision : Option Int := some (-1)
  degree : Bool := false
  verbose : Bool := false
  json : Bool := false
  expressions : List String := []
  deriving Repr, DecidableEq

namespace Invocation

/-- The invocation with a switch that takes no value turned on. -/
def turnOn (invocation : Invocation) : Switch → Invocation
  | .degree => { invocation with degree := true }
  | .verbose => { invocation with verbose := true }
  | .json => { invocation with json := true }
  | _ => invocation

/-- The number that a switch is given; none if it is given the end of the switches. -/
def readValue (switch : Switch) (value : String) : Except UsageError (Option Int) :=
  if value = separatorText then .ok none
  else
    match readInt? value with
    | some number => .ok (some number)
    | none => .error (.notAnInteger switch value)

def setNumber (invocation : Invocation) (number : Option Int) : Switch → Invocation
  | .precision => { invocation with precision := number }
  | .resultPrecision => { invocation with resultPrecision := number }
  | _ => invocation

def setValue (invocation : Invocation) (switch : Switch) (value : String) :
    Except UsageError Invocation := do
  return invocation.setNumber (← readValue switch value) switch

/-- The value of a precision; no number is no precision. -/
def precisionValue : Option Int → Json
  | some number => .int number
  | none => .null

def settings (invocation : Invocation) : Except UsageError Settings :=
  match Settings.ofValues (precisionValue invocation.precision)
      (precisionValue invocation.resultPrecision) (.bool invocation.degree) with
  | .ok settings => .ok settings
  | .error error => .error (.settings error)

end Invocation

inductive Request where
  | help
  | evaluate (invocation : Invocation)
  deriving Repr, DecidableEq

/-- Where the reading of a command line stands to its expressions. -/
inductive Stage where
  | before
  | among
  | after
  deriving Repr, DecidableEq

structure Reading where
  invocation : Invocation := {}
  stage : Stage := .before
  unrecognized : List String := []
  deriving Repr, DecidableEq

namespace Reading

/-- The reading goes on behind the expressions, if there were any. -/
def passed (reading : Reading) : Reading :=
  if reading.stage = .among then { reading with stage := .after } else reading

/-- An argument that has no place on the command line. -/
def reject (reading : Reading) (text : String) : Reading :=
  { reading with unrecognized := reading.unrecognized ++ [text] }

/-- An expression, which is not recognized behind the others. -/
def accept (reading : Reading) (text : String) : Reading :=
  if reading.stage = .after then reading.reject text
  else
    { reading with
      stage := .among
      invocation :=
        { reading.invocation with expressions := reading.invocation.expressions ++ [text] } }

/-- The end of the switches, which belongs to the expressions. -/
def separate (reading : Reading) : Reading :=
  if reading.stage = .after then reading.reject separatorText
  else { reading with stage := .among }

end Reading

/-- What is left of the characters attached to the letter for help, behind all that repeat it; it
asks for nothing. There is no such rest if the last character repeats the letter, and an empty one
if nothing is attached. -/
def ignoredBehindHelp : List Char → Option (List Char)
  | [] => some []
  | c :: rest =>
    if c ≠ helpLetter then some (c :: rest)
    else if rest.isEmpty then none
    else ignoredBehindHelp rest

def readArguments (reading : Reading) : List Argument → Except UsageError Request
  | [] =>
    if reading.unrecognized.isEmpty then .ok (.evaluate reading.invocation)
    else .error (.unrecognized reading.unrecognized)
  | .separator :: rest => readArguments reading.separate rest
  | .expression text :: rest => readArguments (reading.accept text) rest
  | .unknown text :: rest => readArguments (reading.passed.reject text) rest
  | .helpWith attached :: _ =>
    match ignoredBehindHelp attached with
    | some ignored => .error (.ignoredValue .help (String.ofList ignored))
    | none => .ok .help
  | .switch switch (some value) :: rest =>
    if switch.takesValue then
      match reading.invocation.setValue switch value with
      | .error error => .error error
      | .ok invocation => readArguments { reading.passed with invocation := invocation } rest
    else .error (.ignoredValue switch value)
  | .switch switch none :: rest =>
    if switch = .help then .ok .help
    else if switch.takesValue then
      match rest with
      | .expression value :: others =>
        match reading.invocation.setValue switch value with
        | .error error => .error error
        | .ok invocation => readArguments { reading.passed with invocation := invocation } others
      | _ => .error (.missingValue switch)
    else
      readArguments { reading.passed with invocation := reading.invocation.turnOn switch } rest

def Request.ofTexts (texts : List String) : Except UsageError Request := do
  readArguments {} (← Argument.ofTexts texts)

end Reckoner.CommandLine
