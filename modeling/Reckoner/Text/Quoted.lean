import Reckoner.Text.Escape
import Reckoner.Text.Printable

/-!
# Quoted text

The form in which a diagnostic shows a text: between quotes, with every character that has no
visible form of its own written as an escape.
-/

set_option autoImplicit false

namespace Reckoner.Text

/-- Apostrophes stand around a text, unless it holds an apostrophe and no double quote. -/
def quoteFor (characters : List Char) : Char :=
  if characters.contains '\'' && !characters.contains '"' then '"' else '\''

/-- One character of a quoted text. The quote and the backslash follow a backslash; an unprintable
character is a short escape, or its code point in two, four or eight hexadecimal digits. -/
def escape (quote : Char) (c : Char) : List Char :=
  if c = quote || c = '\\' then ['\\', c]
  else if c = '\n' then ['\\', 'n']
  else if c = '\r' then ['\\', 'r']
  else if c = '\t' then ['\\', 't']
  else if isPrintable c then [c]
  else if c.toNat ≤ 0xFF then '\\' :: 'x' :: hexadecimal 2 c.toNat
  else if c.toNat ≤ 0xFFFF then '\\' :: 'u' :: hexadecimal 4 c.toNat
  else '\\' :: 'U' :: hexadecimal 8 c.toNat

/-- The text between quotes, with escapes. -/
def quoted (text : String) : String :=
  let quote := quoteFor text.toList
  String.ofList ([quote] ++ text.toList.flatMap (escape quote) ++ [quote])

end Reckoner.Text
