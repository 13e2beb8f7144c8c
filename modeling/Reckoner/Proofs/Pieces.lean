import Reckoner.Proofs.Numeral
import Reckoner.Token.Lexing

/-!
# The pieces of a text

The pieces that a text is divided into are, one after the other, the whole text. Each of them is of
one of five shapes, and every token of the text belongs to one of them. What is to be shown of all
tokens of a text is therefore shown for the tokens of one piece.
-/

set_option autoImplicit false

namespace Reckoner

open Text

namespace Piece

theorem unsigned_chars (c : Char) (rest : List Char) :
    (unsigned c rest).1.chars ++ (unsigned c rest).2 = c :: rest := by
  unfold unsigned
  cases found : Numeral.scan (c :: rest) with
  | some pair =>
    obtain ⟨digits, after⟩ := pair
    simpa [chars, SignedNumeral.chars] using Numeral.scan_chars found
  | none =>
    simp only
    split
    · simp [chars]
    · simp [chars]

theorem next_chars (previous : Option Token) (c : Char) (rest : List Char) :
    (next previous c rest).1.chars ++ (next previous c rest).2 = c :: rest := by
  unfold next
  split
  · rfl
  · cases isSign : Sign.ofChar? c with
    | none => exact unsigned_chars c rest
    | some sign =>
      have same := Sign.char_of_ofChar? isSign
      simp only
      split
      · cases found : Numeral.scan rest with
        | none => simp [chars, same]
        | some pair =>
          obtain ⟨digits, after⟩ := pair
          simpa [chars, SignedNumeral.chars, same] using Numeral.scan_chars found
      · exact unsigned_chars c rest

theorem divide_chars (previous : Option Token) (characters : List Char) :
    (divide previous characters).flatMap chars = characters := by
  fun_induction divide previous characters with
  | case1 => rfl
  | case2 previous c rest found inner =>
    rw [List.flatMap_cons, inner]
    exact next_chars previous c rest

def WellFormed : Piece → Prop
  | blank c => isBlank c = true
  | .sign _ => True
  | numeral signed => signed.numeral.IsWritten
  | word first rest => isWordStart first = true ∧ ∀ c ∈ rest, isWordPart c = true
  | symbol c => isBlank c = false ∧ isDigit c = false ∧ isWordStart c = false

theorem wellFormed_unsigned {c : Char} (visible : isBlank c = false) (rest : List Char) :
    (unsigned c rest).1.WellFormed := by
  unfold unsigned
  cases found : Numeral.scan (c :: rest) with
  | some pair => exact Numeral.isWritten_of_scan found
  | none =>
    have noDigit : isDigit c = false := by
      apply Bool.eq_false_iff.2
      intro digit
      simp only [Numeral.scan, List.takeWhile_cons, List.dropWhile_cons, digit, if_true] at found
      split at found
      · simp at found
      · simp at found
    simp only
    split
    · rename_i start
      exact ⟨start, fun other member => List.all_eq_true.1 List.all_takeWhile other member⟩
    · rename_i start
      exact ⟨visible, noDigit, Bool.eq_false_iff.2 start⟩

theorem wellFormed_next (previous : Option Token) (c : Char) (rest : List Char) :
    (next previous c rest).1.WellFormed := by
  unfold next
  split
  · assumption
  · rename_i visible
    have visible := Bool.eq_false_iff.2 visible
    cases Sign.ofChar? c with
    | none => exact wellFormed_unsigned visible rest
    | some sign =>
      simp only
      split
      · cases found : Numeral.scan rest with
        | none => exact trivial
        | some pair => exact Numeral.isWritten_of_scan found
      · exact wellFormed_unsigned visible rest

theorem wellFormed_of_mem_divide {previous : Option Token} {characters : List Char} {piece : Piece}
    (member : piece ∈ divide previous characters) : piece.WellFormed := by
  fun_induction divide previous characters with
  | case1 => cases member
  | case2 previous c rest found inner =>
    rcases List.mem_cons.1 member with rfl | later
    · exact wellFormed_next previous c rest
    · exact inner later

theorem exists_of_mem_allTokens {pieces : List Piece} {previous : Option Token} {token : Token}
    (member : token ∈ allTokens previous pieces) :
    ∃ piece ∈ pieces, ∃ before, token ∈ piece.tokens before := by
  induction pieces generalizing previous with
  | nil => cases member
  | cons piece pieces inner =>
    rcases List.mem_append.1 member with here | later
    · exact ⟨piece, List.mem_cons_self, previous, here⟩
    · obtain ⟨other, isOther, before, there⟩ := inner later
      exact ⟨other, List.mem_cons_of_mem _ isOther, before, there⟩

/-- Every token of a text is a token of a well-formed piece whose characters are in the text. -/
theorem exists_of_mem_tokens {previous : Option Token} {characters : List Char} {token : Token}
    (member : token ∈ allTokens previous (divide previous characters)) :
    ∃ piece : Piece, piece.WellFormed ∧ piece.chars ⊆ characters ∧
      ∃ before, token ∈ piece.tokens before := by
  obtain ⟨piece, isPiece, before, isToken⟩ := exists_of_mem_allTokens member
  refine ⟨piece, wellFormed_of_mem_divide isPiece, ?_, before, isToken⟩
  intro c inside
  rw [← divide_chars previous characters]
  exact List.mem_flatMap.2 ⟨piece, isPiece, inside⟩

end Piece

end Reckoner
