import Reckoner.Token.Basic
import Reckoner.Decimal.Fixed
import Reckoner.Text.Quoted

/-!
# Sequences of tokens

A sequence is used at its end, as a queue or as a stack. A token with an empty text is never added
to a sequence; one that came to be in it by other means may be taken out of it and moved.
-/

set_option autoImplicit false

namespace Reckoner

/-- Tokens in order, first to last. -/
abbrev TokenSequence := List Token

namespace TokenSequence

/-- The sequence with a token at its end, unless the token's text is empty. -/
def add (tokens : TokenSequence) (token : Token) : TokenSequence :=
  if token.text.isEmpty then tokens else tokens ++ [token]

/-- The last token and the sequence before it. -/
def takeLast (tokens : TokenSequence) : Option Token × TokenSequence :=
  (tokens.getLast?, tokens.dropLast)

/-- The last token of one sequence, that sequence without it, and the other sequence with it. -/
def moveLast (source target : TokenSequence) : Option Token × TokenSequence × TokenSequence :=
  (source.getLast?, source.dropLast, target ++ source.getLast?.toList)

def texts (tokens : TokenSequence) : List String :=
  tokens.map Token.text

def description (tokens : TokenSequence) : String :=
  "TokenList(" ++ Text.quoted (String.intercalate " " tokens.texts) ++ ")"

end TokenSequence

namespace Token

def ofResult (number : Float) : Token :=
  ofNumber (Decimal.format number) number

end Token

end Reckoner
