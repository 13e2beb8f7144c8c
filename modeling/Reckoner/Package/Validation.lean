import Reckoner.Binary64
import Reckoner.Json.Reader
import Reckoner.Text.Blank
import Reckoner.Text.Case
import Reckoner.Text.Digit

/-!
# Validation of payloads

What the library that validates payloads does with them: which values it takes for a member of some
type, in which order it looks at the members, and how it reports what does not fit. The members are
read one by one, and every one that does not fit is reported with what is wrong with it, where it
stands and what it was. A member may be given in another type if its value is beyond doubt: a whole
number or a truth value as a text, a whole number as a double without a fraction, and each of the two
for the other if it is one or zero.
-/

set_option autoImplicit false

namespace Reckoner.Service

open Text

/-- What can be wrong with a member of a payload, or with the payload as a whole. -/
inductive Problem where
  | missing
  | unexpected
  | notAnObject (payload : String)
  | notText
  | notCharacters
  | tooShort (least : Nat)
  | tooLong (most : Nat)
  | notWhole
  | unreadableWhole
  | fractional
  | notFinite
  | oversized
  | belowLeast (least : Int)
  | aboveMost (most : Int)
  | notTruth
  | unreadableTruth
  deriving Repr, DecidableEq

namespace Problem

def kind : Problem → String
  | missing => "missing"
  | unexpected => "extra_forbidden"
  | notAnObject _ => "model_type"
  | notText => "string_type"
  | notCharacters => "string_unicode"
  | tooShort _ => "string_too_short"
  | tooLong _ => "string_too_long"
  | notWhole => "int_type"
  | unreadableWhole => "int_parsing"
  | fractional => "int_from_float"
  | notFinite => "finite_number"
  | oversized => "int_parsing_size"
  | belowLeast _ => "greater_than_equal"
  | aboveMost _ => "less_than_equal"
  | notTruth => "bool_type"
  | unreadableTruth => "bool_parsing"

/-- A number of characters. -/
def charactersText (count : Nat) : String :=
  toString count ++ if count = 1 then " character" else " characters"

def message : Problem → String
  | missing => "Field required"
  | unexpected => "Extra inputs are not permitted"
  | notAnObject payload => "Input should be a valid dictionary or instance of " ++ payload
  | notText => "Input should be a valid string"
  | notCharacters => "Input should be a valid string, unable to parse raw data as a unicode string"
  | tooShort least => "String should have at least " ++ charactersText least
  | tooLong most => "String should have at most " ++ charactersText most
  | notWhole => "Input should be a valid integer"
  | unreadableWhole => "Input should be a valid integer, unable to parse string as an integer"
  | fractional => "Input should be a valid integer, got a number with a fractional part"
  | notFinite => "Input should be a finite number"
  | oversized => "Unable to parse input string as an integer, exceeded maximum size"
  | belowLeast least => "Input should be greater than or equal to " ++ toString least
  | aboveMost most => "Input should be less than or equal to " ++ toString most
  | notTruth => "Input should be a valid boolean"
  | unreadableTruth => "Input should be a valid boolean, unable to interpret input"

end Problem

structure Complaint where
  location : List CodePoints
  problem : Problem
  input : Json.Foreign
  deriving Repr

def Complaint.toJson (complaint : Complaint) : Json.Foreign :=
  .object [("type", .string complaint.problem.kind),
    ("loc", .array (complaint.location.map .string)),
    ("msg", .string complaint.problem.message), ("input", complaint.input)]

/-! ## Texts -/

/-- The characters of a text, which may have no surrogate among them. -/
def readCharacters (points : CodePoints) : Except Problem String :=
  match points.toString? with
  | some text => .ok text
  | none => .error .notCharacters

/-- A text without the white space around it. -/
def readText : Json.Foreign → Except Problem String
  | .string value => do return trim (← readCharacters value)
  | _ => .error .notText

theorem readText_ofString (text : String) :
    readText (.string (text : CodePoints)) = .ok (trim text) := by
  rw [readText, readCharacters, CodePoints.toString?_ofString]
  rfl

/-- A text whose length is within bounds. -/
def readBoundedText (least most : Nat) (value : Json.Foreign) : Except Problem String := do
  let text ← readText value
  if text.length < least then throw (.tooShort least)
  else if most < text.length then throw (.tooLong most)
  else return text

/-! ## Whole numbers -/

/-- The most characters of a whole number that is given as a text, its sign among them. -/
def maxWholeLength : Nat := 4301

/-- The whole number that characters write plainly: an optional minus sign, and digits that begin
with a zero only if there is no other. -/
def readPlainWhole (characters : List Char) : Except Problem Int :=
  let (sign, body) := match characters with
    | '-' :: rest => (['-'], rest)
    | _ => ([], characters)
  let (digits, rest) := Json.scanWhole body
  if maxWholeLength < (sign ++ digits).length then .error .oversized
  else if digits.isEmpty || !rest.isEmpty then .error .unreadableWhole
  else
    let number : Int := digitsValue digits
    .ok (if sign.isEmpty then number else -number)

/-- The characters from the first one on that is neither a zero nor an underscore. The character in
front of a point stays, and so does the last character of all. -/
def dropZeros (last : Char) : List Char → Option (List Char)
  | [] => some [last]
  | c :: rest =>
    if c = '0' || c = '_' then dropZeros c rest
    else if c = '.' then some (last :: c :: rest)
    else if c = '-' || isAsciiDigit c then some (c :: rest)
    else none

/-- The characters of a number that begins with a digit, without the zeros in front. -/
def significant? : List Char → Option (List Char)
  | [] => none
  | c :: rest =>
    if c = '0' then dropZeros c rest
    else if isAsciiDigit c then some (c :: rest)
    else none

/-- The characters without a point that zeros and nothing else follow. -/
def dropZeroFraction (characters : List Char) : List Char :=
  match characters.dropWhile (· ≠ '.') with
  | [] => characters
  | _ :: fraction =>
    if !fraction.isEmpty && fraction.all (· = '0') then characters.takeWhile (· ≠ '.')
    else characters

/-- Whether two underscores stand side by side. -/
def hasDoubleUnderscore : List Char → Bool
  | first :: second :: rest =>
    (first = '_' && second = '_') || hasDoubleUnderscore (second :: rest)
  | _ => false

/-- The characters without their underscores, if these stand singly between others. -/
def dropUnderscores (characters : List Char) : List Char :=
  if characters.head? = some '_' || characters.getLast? = some '_' ||
      hasDoubleUnderscore characters then characters
  else characters.filter (· ≠ '_')

/-- The characters of a whole number, after white space, a plus sign, zeros in front, a fraction of
zeros and underscores have been dropped. -/
def plainChars? (characters : List Char) : Option (List Char) :=
  let (sign, body) := match trimBy isSpace characters with
    | '-' :: rest => (['-'], rest)
    | '+' :: rest => ([], rest)
    | rest => ([], rest)
  (significant? body).map fun digits => sign ++ dropUnderscores (dropZeroFraction digits)

/-- The whole number that a text writes, plainly or not. Only a text that is plain as it stands is
told that its number is too long. -/
def readWholeText (text : String) : Except Problem Int :=
  match readPlainWhole text.toList with
  | .error .unreadableWhole =>
    match (plainChars? text.toList).map readPlainWhole with
    | some (.ok number) => .ok number
    | _ => .error .unreadableWhole
  | outcome => outcome

/-- The bound that a double without a fraction has to stay below to be a whole number. -/
def wholeBound : Int := 0x7FFFFFFFFFFFFFFF

/-- The whole number that a double is. -/
def readWholeFloat (value : Float) : Except Problem Int :=
  if value.isNaN || value.isInf then .error .notFinite
  else
    let number := Binary64.truncate value
    if !(Binary64.ofInt number == value) then .error .fractional
    else if wholeBound ≤ number || number < -wholeBound then .error .oversized
    else .ok number

/-- The whole number that a value is or writes. -/
def readWholeField : Json.Foreign → Except Problem Int
  | .bool value => .ok (if value then 1 else 0)
  | .int value => .ok value
  | .float value => readWholeFloat value
  | .string value => do readWholeText (← readCharacters value)
  | _ => .error .notWhole

/-- A whole number within bounds. -/
def readBoundedWhole (least most : Int) (value : Json.Foreign) : Except Problem Int := do
  let number ← readWholeField value
  if most < number then throw (.aboveMost most)
  else if number < least then throw (.belowLeast least)
  else return number

/-! ## Truth values -/

/-- The words for true, in lower case. -/
def trueWords : List String := ["1", "on", "t", "true", "y", "yes"]

/-- The words for false, in lower case. -/
def falseWords : List String := ["0", "off", "f", "false", "n", "no"]

/-- The truth value that a word in lower case stands for. -/
def truthOfWord (word : String) : Except Problem Bool :=
  if trueWords.contains word then .ok true
  else if falseWords.contains word then .ok false
  else .error .unreadableTruth

/-- The truth value that a whole number stands for. -/
def truthOfWhole (number : Int) : Except Problem Bool :=
  if number = 0 then .ok false
  else if number = 1 then .ok true
  else .error .unreadableTruth

def readTruth : Json.Foreign → Except Problem Bool
  | .bool value => .ok value
  | .int value =>
    if value < -wholeBound - 1 || wholeBound < value then .error .notTruth else truthOfWhole value
  | .float value =>
    match readWholeFloat value with
    | .ok number => truthOfWhole number
    | .error _ => .error .notTruth
  | .string value => do truthOfWord (lowerCase (← readCharacters value))
  | _ => .error .notTruth

/-! ## Members -/

def readMember {α : Type} (name : String) (read : Json.Foreign → Except Problem α)
    (value : Json.Foreign) : Except Complaint α :=
  match read value with
  | .ok result => .ok result
  | .error problem => .error ⟨[name], problem, value⟩

def required {α : Type} (members : Json.Members CodePoints) (name : String)
    (read : Json.Foreign → Except Problem α) : Except Complaint α :=
  match members.get? name with
  | none => .error ⟨[name], .missing, .object members⟩
  | some value => readMember name read value

/-- A member that may be missing or null. -/
def optional {α : Type} (members : Json.Members CodePoints) (name : String)
    (read : Json.Foreign → Except Problem α) : Except Complaint (Option α) :=
  match members.get? name with
  | none | some .null => .ok none
  | some value =>
    match readMember name read value with
    | .ok result => .ok (some result)
    | .error complaint => .error complaint

/-- The complaints about members with other names than those known. -/
def unknownMembers (members : Json.Members CodePoints) (known : List String) : List Complaint :=
  (members.filter fun member => !(known.map CodePoints.ofString).contains member.1).map fun member =>
    ⟨[member.1], .unexpected, member.2⟩

/-- The complaint about a member, if there is one. -/
def complaintOf {α : Type} : Except Complaint α → List Complaint
  | .ok _ => []
  | .error complaint => [complaint]

/-- The complaint about a payload that is no object. -/
def notAnObject (payload : String) (value : Json.Foreign) : List Complaint :=
  [⟨[], .notAnObject payload, value⟩]

/-- The payload that the members of an object are. A name that is no text of characters is the only
thing reported of an object, even if other members do not fit either. -/
def readObject {α : Type} (payload : String)
    (read : Json.Members CodePoints → Except (List Complaint) α) :
    Json.Foreign → Except (List Complaint) α
  | .object members =>
    match members.find? fun member => member.1.toString?.isNone with
    | some (name, _) => .error [⟨[], .notCharacters, .string name⟩]
    | none => read members
  | value => .error (notAnObject payload value)

end Reckoner.Service
