import Reckoner.Binary64
import Reckoner.Text.Blank
import Reckoner.Text.Digit
import Reckoner.Text.Quoted

/-!
# Numerals

A numeral is digits with an optional point, or a point and digits, and then an optional exponent.
Its digits may be those of any script. `Numeral.scan` takes the longest numeral at the front of a
list of characters; the characters of what it takes, followed by what it leaves, are the list.

Three readers of numbers rest on it: `parseNumber` reads the number that a text begins with,
`readFloat?` a text that is a number as a whole, and `readInt?` a whole number.
-/

set_option autoImplicit false

namespace Reckoner

open Text Binary64

inductive Sign where
  | plus
  | minus
  deriving Repr, DecidableEq

def Sign.char : Sign → Char
  | .plus => '+'
  | .minus => '-'

def Sign.ofChar? (c : Char) : Option Sign :=
  if c = '+' then some .plus else if c = '-' then some .minus else none

theorem Sign.char_of_ofChar? {c : Char} {sign : Sign} (found : ofChar? c = some sign) :
    sign.char = c := by
  simp only [ofChar?] at found
  split at found
  · cases found
    simp_all [char]
  · split at found
    · cases found
      simp_all [char]
    · simp at found

/-- The sign that a list of characters begins with, and the rest of the list. -/
def Sign.scan : List Char → Option Sign × List Char
  | [] => (none, [])
  | c :: rest =>
    match ofChar? c with
    | some sign => (some sign, rest)
    | none => (none, c :: rest)

theorem Sign.scan_chars (characters : List Char) :
    ((Sign.scan characters).1.map Sign.char).toList ++ (Sign.scan characters).2 = characters := by
  fun_cases Sign.scan characters with
  | case1 => rfl
  | case2 c rest sign found => simp [Sign.char_of_ofChar? found]
  | case3 => rfl

structure Exponent where
  mark : Char
  sign : Option Sign
  digits : List Char
  deriving Repr, DecidableEq

def Exponent.chars (exponent : Exponent) : List Char :=
  exponent.mark :: (exponent.sign.map Sign.char).toList ++ exponent.digits

def Exponent.value (exponent : Exponent) : Int :=
  if exponent.sign = some .minus then -(digitsValue exponent.digits : Int)
  else digitsValue exponent.digits

/-- The exponent that a list of characters begins with, if it is complete, and the rest. -/
def Exponent.scan (characters : List Char) : Option Exponent × List Char :=
  match characters with
  | [] => (none, [])
  | mark :: tail =>
    let (sign, body) := Sign.scan tail
    let digits := body.takeWhile isDigit
    if (mark = 'e' || mark = 'E') && !digits.isEmpty then
      (some ⟨mark, sign, digits⟩, body.dropWhile isDigit)
    else (none, characters)

theorem Exponent.scan_chars (characters : List Char) :
    ((Exponent.scan characters).1.map Exponent.chars).getD [] ++ (Exponent.scan characters).2 =
      characters := by
  cases characters with
  | nil => rfl
  | cons mark tail =>
    simp only [Exponent.scan]
    split
    · have signed := Sign.scan_chars tail
      simp only [Option.map_some, Option.getD_some, Exponent.chars, List.append_assoc,
        List.cons_append, List.takeWhile_append_dropWhile, signed]
    · rfl

/-- An unsigned numeral; `fraction` is absent when there is no point. -/
structure Numeral where
  whole : List Char
  fraction : Option (List Char)
  exponent : Option Exponent
  deriving Repr, DecidableEq

namespace Numeral

/-- The digits after the point. -/
def fractionDigits (numeral : Numeral) : List Char :=
  numeral.fraction.getD []

def chars (numeral : Numeral) : List Char :=
  numeral.whole ++ (numeral.fraction.map ('.' :: ·)).getD [] ++
    (numeral.exponent.map Exponent.chars).getD []

/-- The longest numeral at the front of a list of characters, and the rest of the list. -/
def scan (characters : List Char) : Option (Numeral × List Char) :=
  let whole := characters.takeWhile isDigit
  match characters.dropWhile isDigit with
  | '.' :: tail =>
    let fraction := tail.takeWhile isDigit
    if whole.isEmpty && fraction.isEmpty then none
    else
      let (exponent, rest) := Exponent.scan (tail.dropWhile isDigit)
      some (⟨whole, some fraction, exponent⟩, rest)
  | tail =>
    if whole.isEmpty then none
    else
      let (exponent, rest) := Exponent.scan tail
      some (⟨whole, none, exponent⟩, rest)

/-- The characters of the numeral that is found, followed by what it leaves, are all characters. -/
theorem scan_chars {characters rest : List Char} {numeral : Numeral}
    (found : scan characters = some (numeral, rest)) : numeral.chars ++ rest = characters := by
  have whole := List.takeWhile_append_dropWhile (p := isDigit) (l := characters)
  simp only [scan] at found
  split at found
  · rename_i tail point
    split at found
    · simp at found
    · have exponent := Exponent.scan_chars (tail.dropWhile isDigit)
      simp only [Option.some.injEq, Prod.mk.injEq] at found
      obtain ⟨rfl, rfl⟩ := found
      rw [point] at whole
      simpa [chars, exponent] using whole
  · split at found
    · simp at found
    · have exponent := Exponent.scan_chars (characters.dropWhile isDigit)
      simp only [Option.some.injEq, Prod.mk.injEq] at found
      obtain ⟨rfl, rfl⟩ := found
      simp [chars, exponent]

theorem chars_ne_nil_of_scan {characters rest : List Char} {numeral : Numeral}
    (found : scan characters = some (numeral, rest)) : numeral.chars ≠ [] := by
  simp only [scan] at found
  split at found
  · split at found
    · simp at found
    · simp only [Option.some.injEq, Prod.mk.injEq] at found
      obtain ⟨rfl, -⟩ := found
      simp [chars]
  · split at found
    · simp at found
    · rename_i digits
      simp only [Option.some.injEq, Prod.mk.injEq] at found
      obtain ⟨rfl, -⟩ := found
      simp only [List.isEmpty_iff] at digits
      simp [chars, digits]

theorem length_lt_of_scan {characters rest : List Char} {numeral : Numeral}
    (found : scan characters = some (numeral, rest)) : rest.length < characters.length := by
  have nonempty := List.length_pos_iff.2 (chars_ne_nil_of_scan found)
  rw [← scan_chars found, List.length_append]
  omega

/-- All digits of a numeral as one whole number. -/
def coefficient (numeral : Numeral) : Nat :=
  digitsValue (numeral.whole ++ numeral.fractionDigits)

/-- The power of ten that the last digit of a numeral counts. -/
def scale (numeral : Numeral) : Int :=
  ((numeral.exponent.map Exponent.value).getD 0) - numeral.fractionDigits.length

def value (numeral : Numeral) : Rat :=
  (numeral.coefficient : Rat) * (10 : Rat) ^ numeral.scale

/-- The double nearest to a numeral's number, with the given sign. -/
def toFloat (negative : Bool) (numeral : Numeral) : Float :=
  ofDecimal negative numeral.coefficient numeral.scale

end Numeral

/-- A numeral with the sign directly in front of it. -/
structure SignedNumeral where
  sign : Option Sign
  numeral : Numeral
  deriving Repr, DecidableEq

namespace SignedNumeral

def chars (signed : SignedNumeral) : List Char :=
  (signed.sign.map Sign.char).toList ++ signed.numeral.chars

/-- The double nearest to a signed numeral's number. -/
def toFloat (signed : SignedNumeral) : Float :=
  signed.numeral.toFloat (signed.sign = some .minus)

/-- The longest numeral with an optional sign at the front of a list of characters, and the rest. -/
def scan (characters : List Char) : Option (SignedNumeral × List Char) :=
  let (sign, body) := Sign.scan characters
  (Numeral.scan body).map fun (numeral, rest) => (⟨sign, numeral⟩, rest)

end SignedNumeral

/-- A text that stands where a number should and that no number reader accepts. -/
structure RefusedNumeral where
  text : String
  deriving Repr, DecidableEq

def RefusedNumeral.message (refused : RefusedNumeral) : String :=
  "could not convert string to float: " ++ quoted refused.text

/-- The number that a text begins with, after any blanks; zero if there is none. A number that
follows an information separator is refused. -/
def parseNumber (text : String) : Except RefusedNumeral Float :=
  let blanks := text.toList.takeWhile isBlank
  match SignedNumeral.scan (text.toList.dropWhile isBlank) with
  | none => .ok zero
  | some (signed, _) =>
    if blanks.any isSeparator then .error ⟨String.ofList (blanks ++ signed.chars)⟩
    else .ok signed.toFloat

/-- The characters without the underscores that stand between two digits; `none` if an underscore
stands anywhere else. -/
def ungroup? (afterDigit : Bool) : List Char → Option (List Char)
  | [] => some []
  | c :: rest =>
    if c = '_' then
      if afterDigit && rest.head?.any isDigit then ungroup? false rest else none
    else (ungroup? (isDigit c) rest).map (c :: ·)

/-- The double that a text is: a signed numeral, an infinity or a NaN, between white space. -/
def readFloat? (text : String) : Option Float := do
  let (sign, body) := Sign.scan (← ungroup? false (trimBy isSpace text.toList))
  let negative : Bool := sign = some .minus
  let word := String.ofList (body.map Char.toLower)
  if word = "inf" || word = "infinity" then some (infinity negative)
  else if word = "nan" then some notANumber
  else
    match Numeral.scan body with
    | some (numeral, []) => some (numeral.toFloat negative)
    | _ => none

/-- The most digits of a whole number that is read from text. -/
def maxIntegerDigits : Nat := 4300

/-- The whole number that a text is: an optional sign and digits, between white space. -/
def readInt? (text : String) : Option Int := do
  let (sign, body) := Sign.scan (trimBy isSpace text.toList)
  let digits ← ungroup? false body
  if digits.isEmpty || !digits.all isDigit || maxIntegerDigits < digits.length then none
  else if sign = some .minus then some (-(digitsValue digits : Int))
  else some (digitsValue digits : Int)

end Reckoner
