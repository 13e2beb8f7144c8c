import Reckoner.Json.Basic
import Reckoner.Decimal.Shortest
import Reckoner.Text.Quoted

/-!
# Writing JSON

The text of a value, over several lines: two spaces for each level, members in the order of their
names, and every character outside printable ASCII escaped. A double is written with the fewest
digits that read back as it, positionally from `0.0001` up to below `1e16`, and otherwise with an
exponent of at least two digits. A NaN and the infinities have their names.
-/

set_option autoImplicit false

namespace Reckoner.Json

open Binary64

/-- The exponents of the leading digit for which a number is written without an exponent mark. -/
def isPositional (leading : Int) : Bool :=
  -4 ≤ leading && leading < 16

/-- Digits without the zeros at their end, with those zeros counted by the exponent. -/
def normalize (number : Decimal.Scaled) : List Char × Int :=
  let digits := Nat.toDigits 10 number.digits
  let kept := (digits.reverse.dropWhile (· == '0')).reverse
  (kept, number.exponent + (digits.length - kept.length : Nat))

/-- Digits of which the last counts a power of ten, written without an exponent mark and with at
least one digit on each side of the point. -/
def positional (digits : List Char) (exponent : Int) : List Char :=
  if 0 ≤ exponent then digits ++ List.replicate exponent.toNat '0' ++ ['.', '0']
  else
    let places := (-exponent).toNat
    let padded := List.replicate (places + 1 - digits.length) '0' ++ digits
    padded.take (padded.length - places) ++ '.' :: padded.drop (padded.length - places)

/-- Digits with a point after the first one and the exponent of that digit after a mark. -/
def scientific (digits : List Char) (leading : Int) : List Char :=
  let fraction := match digits.drop 1 with
    | [] => []
    | rest => '.' :: rest
  let size := Nat.toDigits 10 leading.natAbs
  digits.take 1 ++ fraction ++ 'e' :: (if leading < 0 then '-' else '+') ::
    (List.replicate (2 - size.length) '0' ++ size)

def magnitudeText (bits : Nat) : List Char :=
  if bits = 0 then ['0', '.', '0']
  else
    let (digits, exponent) := normalize (Decimal.shortest bits)
    let leading := exponent + (digits.length : Int) - 1
    if isPositional leading then positional digits exponent else scientific digits leading

def floatText (number : Float) : String :=
  if number.isNaN then "NaN"
  else
    let sign := if isNegative number then ['-'] else []
    if number.isInf then String.ofList (sign ++ "Infinity".toList)
    else String.ofList (sign ++ magnitudeText (magnitudeBits number))

/-- The escape of a sixteen-bit unit. -/
def unitEscape (code : Nat) : List Char :=
  '\\' :: 'u' :: Text.hexadecimal 4 code

/-- One character of a string. Outside the first 65536 characters it takes two escapes. -/
def escapeChar (c : Char) : List Char :=
  if c = '"' then ['\\', '"']
  else if c = '\\' then ['\\', '\\']
  else if c = '\n' then ['\\', 'n']
  else if c = '\r' then ['\\', 'r']
  else if c = '\t' then ['\\', 't']
  else if c = '\x08' then ['\\', 'b']
  else if c = '\x0c' then ['\\', 'f']
  else if 0x20 ≤ c.toNat && c.toNat ≤ 0x7E then [c]
  else if c.toNat ≤ 0xFFFF then unitEscape c.toNat
  else
    let code := c.toNat - 0x10000
    unitEscape (0xD800 + code / 0x400) ++ unitEscape (0xDC00 + code % 0x400)

def stringText (text : String) : String :=
  String.ofList ('"' :: text.toList.flatMap escapeChar ++ ['"'])

def newline (level : Nat) : String :=
  String.ofList ('\n' :: List.replicate (2 * level) ' ')

/-- Items between brackets, each on a line of its own; brackets alone around none. -/
def block (level : Nat) (opening closing : String) (items : List String) : String :=
  if items.isEmpty then opening ++ closing
  else
    opening ++ newline (level + 1) ++ String.intercalate ("," ++ newline (level + 1)) items ++
      newline level ++ closing

mutual

def textAt (level : Nat) : Json → String
  | null => "null"
  | bool value => if value then "true" else "false"
  | int value => toString value
  | float value => floatText value
  | string value => stringText value
  | array elements => block level "[" "]" (elementTexts (level + 1) elements)
  | object members =>
    let named := memberTexts (level + 1) members
    block level "\x7b" "\x7d" ((named.mergeSort fun first second => first.1 ≤ second.1).map (·.2))

def elementTexts (level : Nat) : List Json → List String
  | [] => []
  | element :: rest => textAt level element :: elementTexts level rest

/-- The texts of an object's members, each beside its name. -/
def memberTexts (level : Nat) : Members → List (String × String)
  | [] => []
  | (name, value) :: rest =>
    (name, stringText name ++ ": " ++ textAt level value) :: memberTexts level rest

end

def text (value : Json) : String :=
  textAt 0 value

end Reckoner.Json
