import Reckoner.Operation
import Reckoner.Random
import Reckoner.Settings.Basic
import Reckoner.Token.Sequence
import Reckoner.Variables
import Reckoner.Numeral

/-!
# Evaluating postfix order

A machine holds a stack of tokens. A token that stands for an operand is put on the stack as it is;
a token that is applied takes its operands from the stack and puts its result there. The operands
are resolved only then: a name has the value it has at that moment. A token that finds no operand at
all is skipped, but for the random number, which needs none; an operand that is missing beside
another one is zero.

Nothing aborts an evaluation of tokens that were read from a text, under a precision that decimal
numbers allow. For other tokens and precisions the machine is kept as it was when it stopped.
-/

set_option autoImplicit false

namespace Reckoner

inductive EvaluationFailure where
  | refusedNumeral (refused : RefusedNumeral)
  | places (error : Decimal.PlacesError)
  deriving Repr, DecidableEq

def EvaluationFailure.message : EvaluationFailure → String
  | refusedNumeral refused => refused.message
  | places error => error.message

/-- The state of an evaluation: the stack with its top first, the table of variables, the warnings,
the source of random numbers, and whether the last applied token defined a variable. -/
structure Machine where
  stack : List Token
  table : Variables
  flags : Flags
  random : RandomSource
  definesVariable : Bool

structure Stopped where
  failure : EvaluationFailure
  machine : Machine

def assignmentText : String := "="

/-- The text of the one token that is applied even to an empty stack. -/
def randomText : String := "rand"

namespace Machine

/-- A machine with an empty stack and no warnings. -/
def start (table : Variables) (random : RandomSource) : Machine :=
  ⟨[], table, {}, random, false⟩

/-- The number that an operand stands for in a table of variables; a missing operand is zero. -/
def resolve (table : Variables) : Option Token → Except RefusedNumeral Float
  | none => .ok Binary64.zero
  | some token =>
    if token.kind = .name then .ok (table.lookup token.text)
    else
      match token.number? with
      | some number => .ok number
      | none => parseNumber token.text

/-- A token on top of the stack, unless its text is empty. -/
def push (machine : Machine) (token : Token) : Machine :=
  if token.text.isEmpty then machine else { machine with stack := token :: machine.stack }

/-- Both operands of an operation, resolved and rounded. A numeral that is refused stops the
evaluation before a rounding does, and the left rounding before the right one. -/
def operands (settings : Settings) (table : Variables) (left right : Option Token) :
    Except EvaluationFailure (Float × Float) :=
  match resolve table left, resolve table right with
  | .error refused, _ => .error (.refusedNumeral refused)
  | _, .error refused => .error (.refusedNumeral refused)
  | .ok x, .ok y =>
    match settings.precision.round x, settings.precision.round y with
    | .error error, _ => .error (.places error)
    | _, .error error => .error (.places error)
    | .ok x, .ok y => .ok (x, y)

/-- The value of the source is stored, unrounded, under the text of the target, if there is one, and
is the result. -/
def assign (machine : Machine) (target source : Option Token) : Except Stopped Machine :=
  let machine := { machine with definesVariable := true }
  match resolve machine.table source with
  | .error refused => .error ⟨.refusedNumeral refused, machine⟩
  | .ok value =>
    let table := match target with
      | none => machine.table
      | some token => machine.table.define token.text value
    .ok ({ machine with table := table }.push (Token.ofResult value))

/-- The result of the operation that a text stands for, and the machine after it; zero for a text
that stands for none. -/
def compute (settings : Settings) (machine : Machine) (text : String) (x y : Float) :
    Float × Machine :=
  match Operation.ofText? text with
  | none => (Binary64.zero, machine)
  | some operation =>
    let (drawn, random) :=
      if operation = .random then machine.random.next else (Binary64.zero, machine.random)
    let (result, flags) := operation.apply settings.inDegrees drawn machine.flags x y
    (result, { machine with flags := flags, random := random })

/-- An operation is applied to its operands, and its rounded result put on the stack. -/
def operate (settings : Settings) (machine : Machine) (text : String) (left right : Option Token) :
    Except Stopped Machine :=
  let machine := { machine with definesVariable := false }
  match operands settings machine.table left right with
  | .error failure => .error ⟨failure, machine⟩
  | .ok (x, y) =>
    let (result, machine) := machine.compute settings text x y
    match settings.precision.round result with
    | .error error => .error ⟨.places error, machine⟩
    | .ok rounded => .ok (machine.push (Token.ofResult rounded))

/-- A token is applied: its operands leave the stack, the right one first. -/
def apply (settings : Settings) (machine : Machine) (token : Token) : Except Stopped Machine :=
  if machine.stack.isEmpty && token.text ≠ randomText then .ok machine
  else
    let right := machine.stack.head?
    let left := if token.operandCount = 2 then machine.stack[1]? else none
    let popped := { machine with stack := machine.stack.drop token.operandCount }
    if token.text = assignmentText then popped.assign left right
    else popped.operate settings token.text left right

def step (settings : Settings) (machine : Machine) (token : Token) : Except Stopped Machine :=
  if token.isCallable then machine.apply settings token else .ok (machine.push token)

/-- All tokens of a sequence, one after the other. -/
def run (settings : Settings) (machine : Machine) (tokens : List Token) : Except Stopped Machine :=
  tokens.foldlM (step settings) machine

/-- The number on top of the stack, rounded to the precision of results, and the machine with an
empty stack. -/
def finish (settings : Settings) (machine : Machine) : Except Stopped (Float × Machine) :=
  match resolve machine.table machine.stack.head? with
  | .error refused => .error ⟨.refusedNumeral refused, machine⟩
  | .ok value =>
    let cleared := { machine with stack := [] }
    match settings.resultPrecision.round value with
    | .error error => .error ⟨.places error, cleared⟩
    | .ok rounded => .ok (rounded, cleared)

/-- The value of a sequence in postfix order, and the machine that is left. -/
def evaluate (settings : Settings) (machine : Machine) (tokens : List Token) :
    Except Stopped (Float × Machine) :=
  match run settings { machine with definesVariable := false } tokens with
  | .error stopped => .error stopped
  | .ok after => after.finish settings

end Machine

end Reckoner
