import Reckoner.Token.Basic
import Reckoner.Numeral
import Reckoner.Text.Case

/-!
# From text to tokens

A text is divided into pieces, one after the other, and each piece gives its tokens. Both steps look
at the last token so far: a sign is part of the numeral behind it, or a negation, only where no
operand precedes it.
-/

set_option autoImplicit false

namespace Reckoner

open Text

def isWordStart (c : Char) : Bool :=
  ('A' ≤ c && c ≤ 'Z') || ('a' ≤ c && c ≤ 'z') || c = '_'

def isWordPart (c : Char) : Bool :=
  isWordStart c || ('0' ≤ c && c ≤ '9')

namespace Token

/-- The token of a word: a function or a unit in lower case if the word is one, and a name as it
stands otherwise. -/
def ofWord (word : String) : Token :=
  let lower := lowerCase word
  if functionNames.contains lower then ⟨lower, .function, none⟩
  else if (ByteUnit.ofName? lower).isSome then ⟨lower, .unit, none⟩
  else ⟨word, .name, none⟩

/-- Whether a sign after the given token is a sign of what follows: at the start, after an opening
parenthesis or a function, and after every operator but the factorial. -/
def isUnaryAfter : Option Token → Bool
  | none => true
  | some token =>
    token.kind = .leftParen || token.kind = .function ||
      (token.kind = .operator && token.text ≠ "!")

end Token

inductive Piece where
  /-- A blank between tokens. -/
  | blank (c : Char)
  /-- A sign that no numeral follows, where no operand precedes it. -/
  | sign (sign : Sign)
  /-- A numeral, with a sign directly in front of it where no operand precedes the sign. -/
  | numeral (signed : SignedNumeral)
  /-- A word: its first character and those after it. -/
  | word (first : Char) (rest : List Char)
  /-- Any other character. -/
  | symbol (c : Char)
  deriving Repr, DecidableEq

namespace Piece

def chars : Piece → List Char
  | blank c => [c]
  | .sign found => [found.char]
  | numeral signed => signed.chars
  | word first rest => first :: rest
  | symbol c => [c]

/-- The token of a character that is a piece of its own. -/
def symbolToken (c : Char) : Token :=
  let text := String.singleton c
  if Token.operatorTexts.contains text then ⟨text, .operator, none⟩
  else if c = '(' then ⟨text, .leftParen, none⟩
  else if c = ')' then ⟨text, .rightParen, none⟩
  else ⟨text, .unknown, none⟩

/-- The number that an empty pair of parentheses holds. -/
def implicitZero : Token := .ofNumber "0" Binary64.zero

def minusOne : Token := .ofNumber "-1" (-Binary64.one)

/-- The tokens of a piece that follows the given token. A negation multiplies by minus one, and a
pair of parentheses with nothing in it holds a zero. -/
def tokens (previous : Option Token) : Piece → List Token
  | blank _ => []
  | .sign .plus => []
  | .sign .minus => [minusOne, ⟨"*", .operator, none⟩]
  | numeral signed => [.ofNumber (String.ofList signed.chars) signed.toFloat]
  | word first rest => [.ofWord (String.ofList (first :: rest))]
  | symbol c =>
    if c = ')' && previous.any (·.kind = .leftParen) then [implicitZero, symbolToken c]
    else [symbolToken c]

/-- The numeral, word or symbol at the front of a text that begins with a character that is not
blank, and what follows it. -/
def unsigned (c : Char) (rest : List Char) : Piece × List Char :=
  match Numeral.scan (c :: rest) with
  | some (found, after) => (numeral ⟨none, found⟩, after)
  | none =>
    if isWordStart c then (word c (rest.takeWhile isWordPart), rest.dropWhile isWordPart)
    else (symbol c, rest)

/-- The first piece of a text that follows the given token, and what follows the piece. -/
def next (previous : Option Token) (c : Char) (rest : List Char) : Piece × List Char :=
  if isBlank c then (blank c, rest)
  else
    match Sign.ofChar? c with
    | some found =>
      if Token.isUnaryAfter previous then
        match Numeral.scan rest with
        | some (unsignedNumeral, after) => (numeral ⟨some found, unsignedNumeral⟩, after)
        | none => (sign found, rest)
      else unsigned c rest
    | none => unsigned c rest

theorem unsigned_length_le (c : Char) (rest : List Char) :
    (unsigned c rest).2.length ≤ rest.length := by
  simp only [unsigned]
  split
  · rename_i found
    exact Nat.le_of_lt_succ (Numeral.length_lt_of_scan found)
  · split
    · exact (List.dropWhile_sublist isWordPart).length_le
    · exact Nat.le_refl _

/-- A piece takes at least the character it begins with. -/
theorem next_length_le (previous : Option Token) (c : Char) (rest : List Char) :
    (next previous c rest).2.length ≤ rest.length := by
  simp only [next]
  split
  · exact Nat.le_refl _
  · split
    · split
      · split
        · rename_i found
          exact Nat.le_of_lt (Numeral.length_lt_of_scan found)
        · exact Nat.le_refl _
      · exact unsigned_length_le c rest
    · exact unsigned_length_le c rest

/-- The pieces of a text that follows the given token. -/
def divide (previous : Option Token) : List Char → List Piece
  | [] => []
  | c :: rest =>
    let found := next previous c rest
    found.1 :: divide ((found.1.tokens previous).getLast?.or previous) found.2
termination_by characters => characters.length
decreasing_by exact Nat.lt_succ_of_le (next_length_le previous c rest)

/-- The tokens of consecutive pieces that follow the given token. -/
def allTokens (previous : Option Token) : List Piece → List Token
  | [] => []
  | piece :: rest =>
    let found := piece.tokens previous
    found ++ allTokens (found.getLast?.or previous) rest

end Piece

def tokenize (text : String) : List Token :=
  Piece.allTokens none (Piece.divide none text.toList)

end Reckoner
