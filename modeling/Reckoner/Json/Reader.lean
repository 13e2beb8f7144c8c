import Reckoner.Json.Foreign
import Reckoner.Numeral

/-!
# Reading JSON

A recursive reader over a list of code points. It takes the grammar of RFC 8259 and, besides, the
constants `NaN`, `Infinity` and `-Infinity`. A number without fraction and exponent is a whole number
of any size up to a bound on its digits; any other is the double nearest to it. A name that an
object gives twice has its last value in its first place. A surrogate in a string stays as it is,
whether it is escaped or not; only two escapes that make a pair are read as one character.

A reader is given a limit on its levels. An array and an object take one level for all that is in
them, and a constant takes one while it is looked up. A text with more levels is refused where the
first one too many is entered, whatever stands behind.

The recursion runs on a bound that no text of the given length exhausts: each level takes at least
one character, and an element or a member is entered at most once between two characters.
-/

set_option autoImplicit false

namespace Reckoner.Json

open Binary64 Text CodePoint

/-- What takes a level of a reader. -/
inductive Container where
  | array
  | object
  | constant
  deriving Repr, DecidableEq

def Container.name : Container → String
  | array => "array"
  | object => "object"
  | constant => "constant"

/-- The reasons why a text is not read: it is no JSON, or something in it is entered that is one
level too many. -/
inductive ReadError where
  | malformed
  | tooDeep (container : Container)
  deriving Repr, DecidableEq

/-- What is reported of a text that is not read. -/
def ReadError.message : ReadError → String
  | malformed => "the text is no JSON"
  | tooDeep container => "no level is left for the next " ++ container.name

/-- A result, if there is one, and otherwise a malformed text. -/
def orMalformed {α : Type} : Option α → Except ReadError α
  | some result => .ok result
  | none => .error .malformed

/-- The white space that may stand between the tokens of a JSON text. -/
def isJsonSpace (c : Char) : Bool :=
  c = ' ' || c = '\t' || c = '\n' || c = '\r'

/-- The code points after any white space. -/
def skipSpace (points : CodePoints) : CodePoints :=
  points.dropWhile (·.passes isJsonSpace)

/-! ## Strings -/

/-- The number that four hexadecimal digits write, and what follows them. -/
def readUnit : CodePoints → Option (Nat × CodePoints)
  | char a :: char b :: char c :: char d :: rest => do
    some ((← hexValue? a) * 4096 + (← hexValue? b) * 256 + (← hexValue? c) * 16 + (← hexValue? d),
      rest)
  | _ => none

/-- The code point after the `\u` of an escape, which may be a pair of escapes, and what follows. -/
def readEscapedUnit (points : CodePoints) : Option (CodePoint × CodePoints) := do
  let (high, rest) ← readUnit points
  match rest with
  | char '\\' :: char 'u' :: tail =>
    match readUnit tail with
    | some (low, rest') =>
      if isHighSurrogate high && isLowSurrogate low then some (char (pairedCharacter high low), rest')
      else some (ofNat high, rest)
    | none => some (ofNat high, rest)
  | _ => some (ofNat high, rest)

/-- The character that a one-letter escape stands for. -/
def simpleEscape? : Char → Option Char
  | '"' => some '"'
  | '\\' => some '\\'
  | '/' => some '/'
  | 'b' => some '\x08'
  | 'f' => some '\x0c'
  | 'n' => some '\n'
  | 'r' => some '\r'
  | 't' => some '\t'
  | _ => none

/-- The rest of a string after its opening quote, with the code points read so far in reverse. -/
def readStringTail (bound : Nat) (read points : CodePoints) : Option (CodePoints × CodePoints) :=
  match bound with
  | 0 => none
  | bound + 1 =>
    match points with
    | char '"' :: rest => some (read.reverse, rest)
    | char '\\' :: char 'u' :: rest =>
      match readEscapedUnit rest with
      | some (point, rest') => readStringTail bound (point :: read) rest'
      | none => none
    | char '\\' :: char letter :: rest =>
      match simpleEscape? letter with
      | some c => readStringTail bound (char c :: read) rest
      | none => none
    | point :: rest =>
      if point = char '\\' || point.code < 0x20 then none else readStringTail bound (point :: read) rest
    | [] => none

/-- A string after its opening quote, and what follows it. -/
def readString (points : CodePoints) : Option (CodePoints × CodePoints) :=
  readStringTail (points.length + 1) [] points

/-! ## Numbers and words -/

/-- The digits of a number's whole part: a zero alone, or digits that do not begin with one. -/
def scanWhole (characters : List Char) : List Char × List Char :=
  match characters with
  | '0' :: rest => (['0'], rest)
  | _ => (characters.takeWhile isAsciiDigit, characters.dropWhile isAsciiDigit)

/-- A number's fraction, if a point and digits stand here, and what follows. -/
def scanFraction (characters : List Char) : Option (List Char) × List Char :=
  match characters with
  | '.' :: rest =>
    let digits := rest.takeWhile isAsciiDigit
    if digits.isEmpty then (none, characters) else (some digits, rest.dropWhile isAsciiDigit)
  | _ => (none, characters)

/-- A number's exponent, if a complete one stands here, and what follows. -/
def scanExponent (characters : List Char) : Option Exponent × List Char :=
  match characters with
  | [] => (none, [])
  | mark :: rest =>
    let (sign, body) := Sign.scan rest
    let digits := body.takeWhile isAsciiDigit
    if (mark = 'e' || mark = 'E') && !digits.isEmpty then
      (some ⟨mark, sign, digits⟩, body.dropWhile isAsciiDigit)
    else (none, characters)

/-- A number after its sign, and what follows it. -/
def readUnsigned (negative : Bool) (characters : List Char) : Option (Foreign × List Char) :=
  let (whole, afterWhole) := scanWhole characters
  if whole.isEmpty then none
  else
    let (fraction, afterFraction) := scanFraction afterWhole
    let (exponent, rest) := scanExponent afterFraction
    if fraction.isNone && exponent.isNone then
      if maxIntegerDigits < whole.length then none
      else
        let magnitude : Int := digitsValue whole
        some (int (if negative then -magnitude else magnitude), rest)
    else some (float ((Numeral.mk whole fraction exponent).toFloat negative), rest)

/-- A number, and what follows it. -/
def readNumeral : List Char → Option (Foreign × List Char)
  | '-' :: rest => readUnsigned true rest
  | characters => readUnsigned false characters

/-- The rest of a list of characters after the given ones, if it begins with them. -/
def after? (word : String) (characters : List Char) : Option (List Char) :=
  if word.toList.isPrefixOf characters then some (characters.drop word.length) else none

/-- A word out of a list, and what follows it. -/
def readWord (words : List (String × Foreign)) (characters : List Char) :
    Option (Foreign × List Char) :=
  words.findSome? fun (word, value) => (after? word characters).map fun rest => (value, rest)

/-- The words that are values of their own. -/
def literals : List (String × Foreign) :=
  [("null", null), ("true", bool true), ("false", bool false)]

/-- The words for doubles that no number writes. -/
def constants : List (String × Foreign) :=
  [("NaN", float notANumber), ("Infinity", float (infinity false)),
    ("-Infinity", float (infinity true))]

/-- The characters that numbers and words are made of. -/
def isTokenPart (c : Char) : Bool :=
  c.isAlphanum || c = '+' || c = '-' || c = '.'

/-- The characters of the token in front, and what follows them. -/
def splitToken : CodePoints → List Char × CodePoints
  | char c :: rest =>
    if isTokenPart c then
      let (token, behind) := splitToken rest
      (c :: token, behind)
    else ([], char c :: rest)
  | points => ([], points)

/-- What is read of the token in front, and what follows it. -/
def onToken (read : List Char → Option (Foreign × List Char)) (points : CodePoints) :
    Option (Foreign × CodePoints) :=
  let (token, behind) := splitToken points
  (read token).map fun (value, rest) => (value, rest.map char ++ behind)

/-! ## Values -/

mutual

/-- A value with at most the given levels, and what follows it. -/
def readValue (levels bound : Nat) (points : CodePoints) :
    Except ReadError (Foreign × CodePoints) :=
  match bound with
  | 0 => .error .malformed
  | bound + 1 =>
    match points with
    | char '"' :: rest =>
      orMalformed ((readString rest).map fun (text, rest') => (string text, rest'))
    | char '[' :: rest =>
      match levels with
      | 0 => .error (.tooDeep .array)
      | levels + 1 =>
        match skipSpace rest with
        | char ']' :: rest' => .ok (array [], rest')
        | rest' =>
          (readElements levels bound [] rest').map fun (elements, tail) => (array elements, tail)
    | char '\x7b' :: rest =>
      match levels with
      | 0 => .error (.tooDeep .object)
      | levels + 1 =>
        match skipSpace rest with
        | char '\x7d' :: rest' => .ok (object [], rest')
        | rest' =>
          (readMembers levels bound [] rest').map fun (members, tail) => (object members, tail)
    | _ =>
      match onToken (readWord constants) points with
      | some found => if levels = 0 then .error (.tooDeep .constant) else .ok found
      | none => orMalformed ((onToken (readWord literals) points).or (onToken readNumeral points))

/-- The elements of an array from one that is still to be read, after those read so far in
reverse. -/
def readElements (levels bound : Nat) (read : List Foreign) (points : CodePoints) :
    Except ReadError (List Foreign × CodePoints) :=
  match bound with
  | 0 => .error .malformed
  | bound + 1 =>
    match readValue levels bound points with
    | .error error => .error error
    | .ok (element, rest) =>
      match skipSpace rest with
      | char ',' :: rest' => readElements levels bound (element :: read) (skipSpace rest')
      | char ']' :: rest' => .ok ((element :: read).reverse, rest')
      | _ => .error .malformed

/-- The members of an object from one that is still to be read, after those read so far. -/
def readMembers (levels bound : Nat) (read : Members CodePoints) (points : CodePoints) :
    Except ReadError (Members CodePoints × CodePoints) :=
  match bound with
  | 0 => .error .malformed
  | bound + 1 =>
    match points with
    | char '"' :: rest =>
      match readString rest with
      | none => .error .malformed
      | some (name, afterName) =>
        match skipSpace afterName with
        | char ':' :: afterColon =>
          match readValue levels bound (skipSpace afterColon) with
          | .error error => .error error
          | .ok (value, afterValue) =>
            match skipSpace afterValue with
            | char ',' :: rest' => readMembers levels bound (read.set name value) (skipSpace rest')
            | char '\x7d' :: rest' => .ok (read.set name value, rest')
            | _ => .error .malformed
        | _ => .error .malformed
    | _ => .error .malformed

end

/-- The value with at most the given levels that a text is, with white space around it. -/
def read (levels : Nat) (points : CodePoints) : Except ReadError Foreign :=
  match readValue levels (2 * points.length + 2) (skipSpace points) with
  | .error error => .error error
  | .ok (value, rest) => if (skipSpace rest).isEmpty then .ok value else .error .malformed

/-- The value of characters that a text is. A text has no more levels than characters, so none is too
deep. -/
def read? (text : String) : Option Json :=
  (read text.length text).toOption.bind native?

end Reckoner.Json
