import Reckoner.Text.Escape

/-!
# Code points

A text from outside may be made of more than characters: a surrogate that is no half of a pair can be
encoded, and can be written as an escape. It is a code point, though it is no character, and a text
that holds it is none of characters.
-/

set_option autoImplicit false

namespace Reckoner.Text

/-- A character, or a number that no character has. -/
inductive CodePoint where
  | char (c : Char)
  | surrogate (code : Nat) (noCharacter : ¬ code.isValidChar)
  deriving Repr, DecidableEq

namespace CodePoint

/-- The code point with a number: a character, unless the number is a surrogate's. -/
def ofNat (code : Nat) : CodePoint :=
  if valid : code.isValidChar then char (Char.ofNat code) else surrogate code valid

def code : CodePoint → Nat
  | char c => c.toNat
  | surrogate code _ => code

/-- Whether a code point is a character that passes a test. -/
def passes (test : Char → Bool) : CodePoint → Bool
  | char c => test c
  | surrogate _ _ => false

def toChar? : CodePoint → Option Char
  | char c => some c
  | surrogate _ _ => none

end CodePoint

/-- A text from outside. -/
abbrev CodePoints := List CodePoint

namespace CodePoints

def ofString (text : String) : CodePoints :=
  text.toList.map .char

instance : Coe String CodePoints := ⟨ofString⟩

/-- The text of characters that code points are, unless a surrogate is among them. -/
def toString? (points : CodePoints) : Option String :=
  (points.mapM CodePoint.toChar?).map String.ofList

theorem mapM_toChar? (characters : List Char) :
    (characters.map CodePoint.char).mapM CodePoint.toChar? = some characters := by
  induction characters with
  | nil => rfl
  | cons c rest inner => simp [List.mapM_cons, inner, CodePoint.toChar?]

@[simp]
theorem toString?_ofString (text : String) : toString? (ofString text) = some text := by
  rw [toString?, ofString, mapM_toChar?, Option.map_some, String.ofList_toList]

theorem ofString_inj {first second : String} :
    ofString first = ofString second ↔ first = second := by
  refine ⟨fun same => ?_, congrArg ofString⟩
  have shown := congrArg toString? same
  rwa [toString?_ofString, toString?_ofString, Option.some.injEq] at shown

end CodePoints

end Reckoner.Text
