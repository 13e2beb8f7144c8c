import Reckoner.Calculator
import Reckoner.Proofs.Reading

/-!
# Expressions and their direct evaluation

An expression is a tree of numerals, names, operations and assignments. It is written with every
composite part in parentheses of its own and blanks between the lexemes, and it is evaluated by
recursion on the tree, without tokens, stacks or precedences. The evaluation shares with the machine
only the operations on doubles, the rounding and the table of variables.
-/

set_option autoImplicit false

namespace Reckoner

namespace Operation

def isBinary : Operation → Bool
  | add | subtract | multiply | divide | power => true
  | _ => false

def isFunction : Operation → Bool
  | squareRoot | absolute | logarithm | floor | ceiling | round | random => true
  | operation => operation.isTrigonometric

def text : Operation → String
  | add => "+"
  | subtract => "-"
  | multiply => "*"
  | divide => "/"
  | power => "^"
  | factorial => "!"
  | squareRoot => "sqrt"
  | absolute => "abs"
  | logarithm => "log"
  | floor => "floor"
  | ceiling => "ceil"
  | round => "round"
  | random => "rand"
  | sine => "sin"
  | cosine => "cos"
  | tangent => "tan"
  | arcSine => "asin"
  | arcCosine => "acos"
  | arcTangent => "atan"
  | bytes unit => unit.name

theorem ofText?_text (operation : Operation) : ofText? operation.text = some operation := by
  cases operation with
  | bytes unit => cases unit <;> rfl
  | _ => rfl

end Operation

/-- A word that is read as the name of a variable. -/
structure VariableName where
  text : String
  isWord : Text.isWord text = true
  isName : (Token.ofWord text).kind = .name

/-- Expressions. A sign belongs to a numeral that stands in parentheses. -/
inductive Expression where
  | numeral (numeral : Numeral) (written : numeral.IsWritten)
  | signed (sign : Sign) (numeral : Numeral) (written : numeral.IsWritten)
  | reference (name : VariableName)
  | binary (operation : Operation) (isBinary : operation.isBinary = true)
      (left right : Expression)
  | factorial (operand : Expression)
  | call (operation : Operation) (isFunction : operation.isFunction = true)
      (argument : Expression)
  | measured (operand : Expression) (unit : ByteUnit)
  | assignment (name : VariableName) (source : Expression)

namespace Expression

def lexemes : Expression → List String
  | .numeral digits _ => [String.ofList digits.chars]
  | signed sign digits _ => ["(", String.ofList (sign.char :: digits.chars), ")"]
  | reference name => [name.text]
  | binary operation _ left right =>
    ["("] ++ left.lexemes ++ [operation.text] ++ right.lexemes ++ [")"]
  | factorial operand => ["("] ++ operand.lexemes ++ ["!", ")"]
  | call operation _ argument => ["(", operation.text, "("] ++ argument.lexemes ++ [")", ")"]
  | measured operand unit => ["("] ++ operand.lexemes ++ [unit.name, ")"]
  | assignment name source => ["(", name.text, "="] ++ source.lexemes ++ [")"]

/-- The text of an expression: its lexemes with single blanks between. -/
def text (expression : Expression) : String :=
  String.intercalate " " expression.lexemes

end Expression

structure Memory where
  table : Variables
  flags : Flags
  random : RandomSource

/-- An evaluation that a refused rounding may end; what was written before that stays. -/
abbrev Evaluation := EStateM Decimal.PlacesError Memory

/-- What an operation takes: a number, or a name that is looked up when the operation is applied. -/
inductive Operand where
  | value (number : Float)
  | reference (name : String)

namespace Operand

def read (table : Variables) : Operand → Float
  | value number => number
  | reference name => table.lookup name

end Operand

namespace Evaluation

def rounded (precision : Precision) (number : Float) : Evaluation Float :=
  match precision.round number with
  | .ok result => pure result
  | .error error => throw error

/-- An operation applied to two operands. Both are rounded, and so is the result. -/
def operate (settings : Settings) (operation : Operation) (left right : Operand) :
    Evaluation Operand := do
  let memory ← get
  let x ← rounded settings.precision (left.read memory.table)
  let y ← rounded settings.precision (right.read memory.table)
  let (drawn, random) :=
    if operation = .random then memory.random.next else (Binary64.zero, memory.random)
  let (result, flags) := operation.apply settings.inDegrees drawn memory.flags x y
  set { memory with flags := flags, random := random }
  return .value (← rounded settings.precision result)

/-- A name is given the number of an operand, unrounded. -/
def assign (name : String) (source : Operand) : Evaluation Operand := do
  let memory ← get
  let number := source.read memory.table
  set { memory with table := memory.table.define name number }
  return .value number

end Evaluation

namespace Expression

open Evaluation

/-- Operands are evaluated first, left to right. An operation on one operand has zero for the
missing left one. -/
def evaluate (settings : Settings) : Expression → Evaluation Operand
  | .numeral digits _ => pure (.value (digits.toFloat false))
  | signed sign digits _ => pure (.value (digits.toFloat (sign = .minus)))
  | reference name => pure (.reference name.text)
  | binary operation _ left right => do
    let x ← left.evaluate settings
    let y ← right.evaluate settings
    operate settings operation x y
  | factorial operand => do
    operate settings .factorial (.value Binary64.zero) (← operand.evaluate settings)
  | call operation _ argument => do
    operate settings operation (.value Binary64.zero) (← argument.evaluate settings)
  | measured operand unit => do
    operate settings (.bytes unit) (.value Binary64.zero) (← operand.evaluate settings)
  | assignment name source => do
    assign name.text (← source.evaluate settings)

/-- The value of an expression, rounded to the precision of results. -/
def result (settings : Settings) (expression : Expression) : Evaluation Float := do
  let operand ← expression.evaluate settings
  let memory ← get
  rounded settings.resultPrecision (operand.read memory.table)

/-- Whether the last thing that an expression does is to define a variable. -/
def isAssignment : Expression → Bool
  | assignment _ _ => true
  | _ => false

end Expression

end Reckoner
