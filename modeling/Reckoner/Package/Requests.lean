import Reckoner.Text.Blank
import Reckoner.Text.Case
import Reckoner.Text.Escape

/-!
# Requests in the web framework

What the framework does with a request before the service sees it: how it takes the target apart,
which methods it lets through to a place, and which types of content it takes for JSON.

The target of a request names a path, which is divided into segments. Escaped characters count as
what they stand for, an escaped slash included, before the path is divided. Several slashes in front
of the path count as one. A place that takes GET takes HEAD as well, and every place takes OPTIONS.
-/

set_option autoImplicit false

namespace Reckoner.Service

open Text

/-! ## Paths -/

/-- A path by its segments; the slash in front of the first one is left out. -/
abbrev Path := List String

/-- The characters of a target that count: not its line breaks and tabs, and not what is blank in
front of it. -/
def significantChars (characters : List Char) : List Char :=
  (characters.dropWhile fun c => c.toNat ≤ 0x20).filter fun c =>
    !(c = '\t' || c = '\n' || c = '\r')

def isSchemeChar (c : Char) : Bool :=
  c.isAlphanum || c = '+' || c = '-' || c = '.'

/-- The characters behind the name of a scheme, which begins with a letter and ends before a
colon. -/
def behindScheme (characters : List Char) : List Char :=
  match characters.takeWhile isSchemeChar, characters.dropWhile isSchemeChar with
  | first :: _, ':' :: rest => if first.isAlpha then rest else characters
  | _, _ => characters

/-- The characters behind the name of a host, which two slashes announce. -/
def behindHost (characters : List Char) : List Char :=
  match characters with
  | '/' :: '/' :: rest => rest.dropWhile (· ≠ '/')
  | _ => characters

/-- The characters of a path, without scheme, host, query and fragment. -/
def pathChars (characters : List Char) : List Char :=
  behindHost (behindScheme ((significantChars characters).takeWhile fun c => c ≠ '?' && c ≠ '#'))

/-- The escaped path of a target. What is left of the target may once more be a whole address, and
only the path of that one counts. -/
def escapedPath (target : String) : List Char :=
  pathChars (pathChars target.toList)

/-- The byte that two hexadecimal digits behind a percent sign write. -/
def escapedByte? (c first second : Char) : Option UInt8 := do
  if c = '%' then return UInt8.ofNat ((← hexValue? first) * 16 + (← hexValue? second))
  else none

/-- The bytes of escaped characters. A percent sign without two digits stands for itself. -/
def unescape : List Char → List UInt8
  | c :: first :: second :: rest =>
    match escapedByte? c first second with
    | some byte => byte :: unescape rest
    | none => String.utf8EncodeChar c ++ unescape (first :: second :: rest)
  | characters => characters.flatMap String.utf8EncodeChar

/-- What stands for characters that could not be read. -/
def replacementCharacter : Char := Char.ofNat 0xFFFD

/-- The text that bytes encode; the replacement character for bytes that encode none. -/
def textOfBytes (bytes : List UInt8) : String :=
  (String.fromUTF8? ⟨bytes.toArray⟩).getD (String.singleton replacementCharacter)

def slash : UInt8 := 0x2F

def splitAtSlashes : List UInt8 → List (List UInt8)
  | [] => [[]]
  | byte :: rest =>
    if byte = slash then [] :: splitAtSlashes rest
    else
      match splitAtSlashes rest with
      | [] => [[byte]]
      | first :: others => (byte :: first) :: others

/-- The path of a target, and `none` if the target names no path at all. -/
def Path.ofTarget? (target : String) : Option Path :=
  match escapedPath target with
  | [] => none
  | characters =>
    some ((splitAtSlashes ((unescape characters).dropWhile (· = slash))).map textOfBytes)

/-- The path with slashes that follow each other directly counted as one. -/
def Path.merged (path : Path) : Path :=
  let inner := path.dropLast.filter fun segment => !segment.isEmpty
  inner ++ path.getLast?.toList

/-! ## Places -/

/-- The places of a service: the one that a path names, the method that each is made for, and the
one that is meant where there is no path. -/
structure Places (Place : Type) where
  ofPath? : Path → Option Place
  method : Place → String
  home : Place

/-- Where a request leads: to a place, to a place that does not take its method, to the same path
with fewer slashes, or nowhere. -/
inductive Destination (Place : Type) where
  | place (place : Place)
  | wrongMethod
  | moved
  | nowhere
  deriving Repr, DecidableEq

namespace Places

variable {Place : Type} (places : Places Place)

/-- Whether a place takes a method. -/
def takes (place : Place) (method : String) : Bool :=
  method = places.method place || method = "OPTIONS" ||
    (method = "HEAD" && places.method place = "GET")

/-- Where a path leads for a method. A path that leads nowhere as it is may lead somewhere with its
slashes merged. -/
def leadOfPath (method : String) (path : Path) : Destination Place :=
  match places.ofPath? path, places.ofPath? path.merged with
  | some place, _ => if places.takes place method then .place place else .wrongMethod
  | none, some place => if places.takes place method then .moved else .wrongMethod
  | none, none => .nowhere

/-- Where a request with a method and a target leads. A target without a path leads home by way of
the path that names it. -/
def lead (method target : String) : Destination Place :=
  match Path.ofTarget? target with
  | some path => places.leadOfPath method path
  | none => if places.takes places.home method then .moved else .nowhere

end Places

/-! ## Types of content -/

/-- The blanks that may stand around the parts of a header. -/
def isHeaderBlank (c : Char) : Bool :=
  c = ' ' || c = '\t'

/-- The type that a header tells, without its parameters; the empty text if there is no header. -/
def mimeType (contentType : Option String) : String :=
  match contentType with
  | none => ""
  | some text =>
    lowerCase (String.ofList (trimBy isHeaderBlank (text.toList.takeWhile (· ≠ ';'))))

def isJsonType (contentType : Option String) : Bool :=
  let type := mimeType contentType
  type = "application/json" ||
    ("application/".toList.isPrefixOf type.toList && "+json".toList.isSuffixOf type.toList)

end Reckoner.Service
