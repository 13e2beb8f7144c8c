import Reckoner.Json.Basic
import Reckoner.Operation
import Reckoner.Token.Basic
import Reckoner.Variables

/-!
# Warnings

After an evaluation the tokens of the expression are looked at once more: an unknown character, and
a name that has no value by then, is reported, and so are the warnings that operations gave rise
to.
-/

set_option autoImplicit false

namespace Reckoner

namespace Token

def isVariable (token : Token) (table : Variables) : Bool :=
  token.kind = .name && table.contains token.text

/-- Tokens that need no warning. -/
def isValid (token : Token) (table : Variables) : Bool :=
  if token.kind = .unknown then false
  else if token.kind = .name then table.contains token.text
  else true

end Token

structure Warnings where
  invalidTokens : List String
  flags : Flags
  deriving Repr, DecidableEq

namespace Warnings

/-- The warnings about tokens after an evaluation. -/
def collect (tokens : List Token) (table : Variables) (flags : Flags) : Warnings :=
  ⟨(tokens.filter fun token => !token.isValid table).map Token.text, flags⟩

/-- The number of warnings. -/
def count (warnings : Warnings) : Nat :=
  warnings.invalidTokens.length + warnings.flags.divisionByZero.toNat +
    warnings.flags.trigonometricDomain.toNat

def inaccurate (warnings : Warnings) : Bool :=
  0 < warnings.count

def tokenMessage (text : String) : String :=
  "Warning: Invalid token '" ++ text ++ "'"

/-- The lines that report the warnings; none if there is nothing to report. -/
def messages (warnings : Warnings) : List String :=
  let found := warnings.invalidTokens.map tokenMessage ++
    (if warnings.flags.divisionByZero then ["Warning: Division by zero"] else []) ++
    (if warnings.flags.trigonometricDomain then
      ["Warning: Invalid value for trigonometric function"] else [])
  if found.isEmpty then [] else found ++ ["Result may be inaccurate"]

def toJson (warnings : Warnings) : Json :=
  .object [("invalid_tokens", Json.strings warnings.invalidTokens),
    ("division_by_zero", .bool warnings.flags.divisionByZero),
    ("trigonometric_domain", .bool warnings.flags.trigonometricDomain),
    ("inaccurate", .bool warnings.inaccurate),
    ("messages", Json.strings warnings.messages)]

end Warnings

end Reckoner
