import Reckoner.Json.Reader

/-!
# The grammar of JSON

Which code points write which value, said without the reader. It is the grammar of RFC 8259 with three
constants more, `NaN`, `Infinity` and `-Infinity`, and with surrogates that have no other half. Whole
numbers have a bound on their digits. Arrays, objects and constants are counted by the levels in which
they stand, because a reader has a limit on these.
-/

set_option autoImplicit false

namespace Reckoner.Json

open Binary64 Text CodePoint

/-- Code points between the tokens of a text. -/
def IsSpace (points : CodePoints) : Prop :=
  ∀ point ∈ points, point.passes isJsonSpace = true

/-! ## Numbers -/

structure AreDigits (digits : List Char) : Prop where
  nonempty : digits ≠ []
  ascii : ∀ c ∈ digits, isAsciiDigit c = true

/-- A whole part: a zero alone, or digits that do not begin with one. -/
structure IsWhole (whole : List Char) : Prop where
  digits : AreDigits whole
  leading : whole.head? = some '0' → whole = ['0']

structure IsExponent (exponent : Exponent) : Prop where
  mark : exponent.mark = 'e' ∨ exponent.mark = 'E'
  digits : AreDigits exponent.digits

/-- A numeral of JSON: a point in it stands between digits. -/
structure IsNumeral (numeral : Numeral) : Prop where
  whole : IsWhole numeral.whole
  fraction : ∀ digits ∈ numeral.fraction, AreDigits digits
  exponent : ∀ exponent ∈ numeral.exponent, IsExponent exponent

/-- A number behind its sign. It is a double if it has a fraction or an exponent. -/
inductive WritesNumber (negative : Bool) : Foreign → List Char → Prop where
  | whole {digits : List Char} :
      IsWhole digits → digits.length ≤ maxIntegerDigits →
      WritesNumber negative
        (.int (if negative then -(digitsValue digits : Int) else digitsValue digits)) digits
  | double {numeral : Numeral} :
      IsNumeral numeral → (numeral.fraction.isSome ∨ numeral.exponent.isSome) →
      WritesNumber negative (.float (numeral.toFloat negative)) numeral.chars

/-! ## Strings -/

/-- Four hexadecimal digits write a unit of sixteen bits. -/
inductive WritesUnit : Nat → CodePoints → Prop where
  | digits {a b c d : Char} {first second third fourth : Nat} :
      hexValue? a = some first → hexValue? b = some second → hexValue? c = some third →
      hexValue? d = some fourth →
      WritesUnit (first * 4096 + second * 256 + third * 16 + fourth) [char a, char b, char c, char d]

/-- Code points that begin with an escaped second half of a surrogate pair. -/
def BeginsWithLow (points : CodePoints) : Prop :=
  ∃ unit digits rest, WritesUnit unit digits ∧ isLowSurrogate unit = true ∧
    points = char '\\' :: char 'u' :: digits ++ rest

/-- The code points that stand for others between the quotes of a string. -/
inductive WritesString : CodePoints → CodePoints → Prop where
  | nil : WritesString [] []
  | plain {point : CodePoint} {meant written : CodePoints} :
      point ≠ char '"' → point ≠ char '\\' → 0x20 ≤ point.code →
      WritesString meant written → WritesString (point :: meant) (point :: written)
  | escape {letter c : Char} {meant written : CodePoints} :
      simpleEscape? letter = some c →
      WritesString meant written →
      WritesString (char c :: meant) (char '\\' :: char letter :: written)
  | unit {unit : Nat} {digits meant written : CodePoints} :
      WritesUnit unit digits → (isHighSurrogate unit = true → ¬ BeginsWithLow written) →
      WritesString meant written →
      WritesString (ofNat unit :: meant) (char '\\' :: char 'u' :: digits ++ written)
  | pair {high low : Nat} {highDigits lowDigits meant written : CodePoints} :
      WritesUnit high highDigits → isHighSurrogate high = true →
      WritesUnit low lowDigits → isLowSurrogate low = true →
      WritesString meant written →
      WritesString (char (pairedCharacter high low) :: meant)
        (char '\\' :: char 'u' :: highDigits ++ char '\\' :: char 'u' :: lowDigits ++ written)

/-! ## Values -/

/-- The members that pairs make: a name that is given twice has its last value in its first place. -/
def Members.ofPairs (pairs : Members CodePoints) : Members CodePoints :=
  pairs.foldl (fun members pair => members.set pair.1 pair.2) []

/-- What code points may write: a value, or what stands between the brackets of one. -/
inductive Part where
  | value (value : Foreign)
  | elements (elements : List Foreign)
  | members (pairs : Members CodePoints)

/-- Code points write a part with no more than so many levels. -/
inductive Writes : Nat → Part → CodePoints → Prop where
  | literal {levels : Nat} {word : String} {value : Foreign} :
      (word, value) ∈ literals → Writes levels (.value value) word
  | constant {levels : Nat} {word : String} {value : Foreign} :
      (word, value) ∈ constants → Writes (levels + 1) (.value value) word
  | number {levels : Nat} {value : Foreign} {characters : List Char} :
      WritesNumber false value characters → Writes levels (.value value) (characters.map char)
  | negative {levels : Nat} {value : Foreign} {characters : List Char} :
      WritesNumber true value characters →
      Writes levels (.value value) (char '-' :: characters.map char)
  | string {levels : Nat} {meant written : CodePoints} :
      WritesString meant written →
      Writes levels (.value (.string meant)) (char '"' :: written ++ [char '"'])
  | emptyArray {levels : Nat} {space : CodePoints} :
      IsSpace space → Writes (levels + 1) (.value (.array [])) (char '[' :: space ++ [char ']'])
  | array {levels : Nat} {elements : List Foreign} {points : CodePoints} :
      Writes levels (.elements elements) points →
      Writes (levels + 1) (.value (.array elements)) (char '[' :: points ++ [char ']'])
  | emptyObject {levels : Nat} {space : CodePoints} :
      IsSpace space →
      Writes (levels + 1) (.value (.object [])) (char '\x7b' :: space ++ [char '\x7d'])
  | object {levels : Nat} {pairs : Members CodePoints} {points : CodePoints} :
      Writes levels (.members pairs) points →
      Writes (levels + 1) (.value (.object (Members.ofPairs pairs)))
        (char '\x7b' :: points ++ [char '\x7d'])
  | lastElement {levels : Nat} {element : Foreign} {before points after : CodePoints} :
      IsSpace before → Writes levels (.value element) points → IsSpace after →
      Writes levels (.elements [element]) (before ++ points ++ after)
  | element {levels : Nat} {element : Foreign} {elements : List Foreign}
      {before points after others : CodePoints} :
      IsSpace before → Writes levels (.value element) points → IsSpace after →
      Writes levels (.elements elements) others →
      Writes levels (.elements (element :: elements))
        (before ++ points ++ after ++ char ',' :: others)
  | lastMember {levels : Nat} {name written : CodePoints} {value : Foreign}
      {before behind between points after : CodePoints} :
      IsSpace before → WritesString name written → IsSpace behind → IsSpace between →
      Writes levels (.value value) points → IsSpace after →
      Writes levels (.members [(name, value)])
        (before ++ char '"' :: written ++ char '"' :: behind ++ char ':' :: between ++ points ++
          after)
  | member {levels : Nat} {name written : CodePoints} {value : Foreign} {pairs : Members CodePoints}
      {before behind between points after others : CodePoints} :
      IsSpace before → WritesString name written → IsSpace behind → IsSpace between →
      Writes levels (.value value) points → IsSpace after →
      Writes levels (.members pairs) others →
      Writes levels (.members ((name, value) :: pairs))
        (before ++ char '"' :: written ++ char '"' :: behind ++ char ':' :: between ++ points ++
          after ++ char ',' :: others)

/-- A text that is a value with no more than so many levels, with white space around it. -/
def IsText (levels : Nat) (value : Foreign) (text : CodePoints) : Prop :=
  ∃ before points after, IsSpace before ∧ Writes levels (.value value) points ∧ IsSpace after ∧
    text = before ++ points ++ after

end Reckoner.Json
