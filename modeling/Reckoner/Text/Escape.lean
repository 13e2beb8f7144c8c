/-!
# Escapes by number

Characters and bytes may be written by their number in hexadecimal digits. A character beyond the
first 65536 takes two numbers, which are the halves of a surrogate pair.
-/

set_option autoImplicit false

namespace Reckoner.Text

/-- The lower-case hexadecimal digits of a number, with zeros in front up to a width. -/
def hexadecimal (width value : Nat) : List Char :=
  let digits := Nat.toDigits 16 value
  List.replicate (width - digits.length) '0' ++ digits

def hexValue? (c : Char) : Option Nat :=
  if '0' ≤ c && c ≤ '9' then some (c.toNat - 48)
  else if 'a' ≤ c && c ≤ 'f' then some (c.toNat - 87)
  else if 'A' ≤ c && c ≤ 'F' then some (c.toNat - 55)
  else none

/-- Whether a sixteen-bit unit is the first half of a surrogate pair. -/
def isHighSurrogate (code : Nat) : Bool := 0xD800 ≤ code && code ≤ 0xDBFF

/-- Whether a sixteen-bit unit is the second half of a surrogate pair. -/
def isLowSurrogate (code : Nat) : Bool := 0xDC00 ≤ code && code ≤ 0xDFFF

/-- The character that the two halves of a surrogate pair stand for. -/
def pairedCharacter (high low : Nat) : Char :=
  Char.ofNat ((high - 0xD800) * 0x400 + (low - 0xDC00) + 0x10000)

end Reckoner.Text
