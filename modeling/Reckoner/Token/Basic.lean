import Reckoner.ByteUnit

/-!
# Tokens

A token is a text with the kind of thing it is, and for a numeral its number. Tokens may be built by
hand as well as read from an expression, so nothing here asserts that a text fits its kind: what a
token does when it is applied depends on its text, and how it binds depends on both.
-/

set_option autoImplicit false

namespace Reckoner

inductive TokenKind where
  | number
  | name
  | operator
  | function
  | unit
  | leftParen
  | rightParen
  | unknown
  deriving Repr, DecidableEq

namespace TokenKind

def all : List TokenKind :=
  [number, name, operator, function, unit, leftParen, rightParen, unknown]

def label : TokenKind → String
  | number => "number"
  | name => "name"
  | operator => "operator"
  | function => "function"
  | unit => "unit"
  | leftParen => "left_paren"
  | rightParen => "right_paren"
  | unknown => "unknown"

def ofLabel? (text : String) : Option TokenKind :=
  all.find? fun kind => kind.label == text

theorem ofLabel?_label (kind : TokenKind) : ofLabel? kind.label = some kind := by
  cases kind <;> decide

end TokenKind

/-- A piece of text with its kind. The number, where there is one, is what the token stands for, so
that a result never has to be read back from its text. -/
structure Token where
  text : String
  kind : TokenKind
  number? : Option Float := none
  deriving Repr, DecidableEq

namespace Token

def ofNumber (text : String) (number : Float) : Token :=
  ⟨text, .number, some number⟩

def isOperand (token : Token) : Bool :=
  token.kind = .number || token.kind = .name || token.kind = .unknown

def isCallable (token : Token) : Bool :=
  token.kind = .operator || token.kind = .function || token.kind = .unit

def operatorTexts : List String := ["+", "-", "*", "/", "^", "!", "="]

def trigonometricNames : List String := ["sin", "cos", "tan", "asin", "acos", "atan"]

/-- The names of all functions. -/
def functionNames : List String :=
  ["sqrt", "abs", "log", "floor", "ceil", "round", "rand"] ++ trigonometricNames

def isTrigonometric (token : Token) : Bool :=
  token.kind = .function && trigonometricNames.contains token.text

/-- The precedence of an operator's or parenthesis's text; a higher one binds tighter. A parenthesis
is below every operator, so no operator ever moves it. -/
def textPrecedence : String → Nat
  | "=" => 1
  | "+" => 2
  | "-" => 2
  | "*" => 3
  | "/" => 3
  | "^" => 4
  | "!" => 5
  | _ => 0

/-- The precedence of a token. Functions and units bind tighter than every operator; of any other
token the text alone decides. -/
def precedence (token : Token) : Nat :=
  if token.kind = .function || token.kind = .unit then 6 else textPrecedence token.text

def operandCount (token : Token) : Nat :=
  if token.kind = .function || token.kind = .unit || token.text = "!" then 1 else 2

end Token

end Reckoner
