import Reckoner.Token.Sequence

/-!
# Postfix order

A sequence of tokens in the usual order is put into postfix order: every operand before the operator
or function that takes it. Operators wait on a stack; one of equal or higher precedence leaves it
before the incoming one, so every operator groups to the left. Parentheses need not balance: a
closing one without partner empties the stack, and an opening one without partner is dropped at the
end. A unit follows its operand, so it goes straight to the output.
-/

set_option autoImplicit false

namespace Reckoner

/-- A conversion on its way: the output so far, and the waiting operators with the latest first. -/
structure Conversion where
  output : List Token
  waiting : List Token
  deriving Repr, DecidableEq

namespace Conversion

/-- A token goes to the output, unless its text is empty. -/
def emit (conversion : Conversion) (token : Token) : Conversion :=
  { conversion with output := TokenSequence.add conversion.output token }

/-- A token waits, unless its text is empty. -/
def wait (conversion : Conversion) (token : Token) : Conversion :=
  if token.text.isEmpty then conversion
  else { conversion with waiting := token :: conversion.waiting }

/-- The waiting tokens up to the first that fails a test go to the output. -/
def release (conversion : Conversion) (test : Token → Bool) : Conversion :=
  { output := conversion.output ++ conversion.waiting.takeWhile test
    waiting := conversion.waiting.dropWhile test }

/-- The tokens that wait since the last opening parenthesis go to the output, and the parenthesis is
dropped. -/
def close (conversion : Conversion) : Conversion :=
  let released := conversion.release (·.kind ≠ .leftParen)
  { released with waiting := released.waiting.drop 1 }

def take (conversion : Conversion) (token : Token) : Conversion :=
  match token.kind with
  | .leftParen => conversion.wait token
  | .rightParen => conversion.close
  | .function => conversion.wait token
  | .operator => (conversion.release fun other => token.precedence ≤ other.precedence).wait token
  | _ => conversion.emit token

/-- At the end the waiting tokens go to the output, but for opening parentheses. -/
def finish (conversion : Conversion) : Conversion :=
  { output := conversion.output ++ conversion.waiting.filter (·.kind ≠ .leftParen)
    waiting := [] }

/-- The conversion of a whole sequence, from operators that already wait with the latest first. -/
def run (waiting : List Token) (tokens : List Token) : Conversion :=
  (tokens.foldl take ⟨[], waiting⟩).finish

end Conversion

/-- The tokens in postfix order. -/
def toPostfix (tokens : List Token) : List Token :=
  (Conversion.run [] tokens).output

end Reckoner
