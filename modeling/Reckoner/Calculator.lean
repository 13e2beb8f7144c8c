import Reckoner.Evaluation
import Reckoner.Postfix
import Reckoner.Token.Lexing
import Reckoner.Warnings

/-!
# Calculators

A calculator evaluates one expression after the other under one set of settings. Its table of
variables is all that one evaluation leaves for the next: the warnings belong to the evaluation that
gave rise to them. The source of random numbers is not the calculator's own, since several may share
one.
-/

set_option autoImplicit false

namespace Reckoner

structure Calculator where
  settings : Settings := {}
  table : Variables := .empty
  deriving Repr

/-- The outcome of one evaluation. The output is absent if the expression defined a variable. -/
structure Report where
  expression : String
  value : Float
  output : Option String
  infixTexts : List String
  postfixTexts : List String
  warnings : Warnings
  deriving Repr

namespace Report

def definesVariable (report : Report) : Bool :=
  report.output.isNone

def display (report : Report) : Option String :=
  report.output.map Decimal.trimFraction

def members (report : Report) : Json.Members :=
  [("expression", .string report.expression),
    ("result", Json.stringOrNull report.output),
    ("display", Json.stringOrNull report.display),
    ("value", if report.definesVariable then .null else .float report.value),
    ("defines_variable", .bool report.definesVariable),
    ("infix", Json.strings report.infixTexts),
    ("postfix", Json.strings report.postfixTexts),
    ("warnings", report.warnings.toJson)]

def toJson (report : Report) : Json :=
  .object report.members

end Report

namespace Calculator

/-- The tokens of an expression as they stand, and in postfix order. -/
def convert (expression : String) : List Token × List Token :=
  let tokens := tokenize expression
  (tokens, toPostfix tokens)

/-- The report on an evaluation that came to its end. -/
def report (expression : String) (value : Float) (machine : Machine) : Report :=
  let (tokens, reordered) := convert expression
  { expression := expression
    value := value
    output := if machine.definesVariable then none else some (Decimal.format value)
    infixTexts := tokens.map Token.text
    postfixTexts := reordered.map Token.text
    warnings := Warnings.collect tokens machine.table machine.flags }

/-- The outcome of evaluating an expression, the calculator after it, and the source of random
numbers after it. The variables defined before an evaluation stopped stay defined. -/
def evaluate (calculator : Calculator) (random : RandomSource) (expression : String) :
    Except EvaluationFailure Report × Calculator × RandomSource :=
  let machine := Machine.start calculator.table random
  match machine.evaluate calculator.settings (convert expression).2 with
  | .ok (value, after) =>
    (.ok (report expression value after), { calculator with table := after.table },
      after.random)
  | .error stopped =>
    (.error stopped.failure, { calculator with table := stopped.machine.table },
      stopped.machine.random)

/-- The calculator without its variables. -/
def close (calculator : Calculator) : Calculator :=
  { calculator with table := .empty }

end Calculator

end Reckoner
