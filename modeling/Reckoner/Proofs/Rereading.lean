import Reckoner.Proofs.Division
import Reckoner.Proofs.Outcome

/-!
# Texts that are written out again

The tokens of a text, written with single blanks between them, are read as the same tokens: every
token that a piece gives reads back after the one before it, the synthetic ones too. A text of an
evaluation may therefore be replaced by its tokens.
-/

set_option autoImplicit false

namespace Reckoner

open Text

theorem isNumeral_digit {c : Char} (digit : isDigit c = true) : IsNumeral [c] := by
  refine ⟨⟨[c], none, none⟩, ⟨?_, nofun, .inl (List.cons_ne_nil c []), nofun⟩, rfl⟩
  intro other member
  rwa [List.mem_singleton.1 member]

theorem BeginsNumeral.mono {front characters : List Char} (begins : BeginsNumeral front)
    (isFront : front <+: characters) : BeginsNumeral characters := by
  obtain ⟨numeral, isNumeral, inside⟩ := begins
  exact ⟨numeral, isNumeral, inside.trans isFront⟩

/-- A character that begins no numeral in one text begins none in front of a stop. -/
theorem not_beginsNumeral_of_stops {c : Char} {rest after : List Char}
    (noNumeral : ¬ BeginsNumeral (c :: rest)) (stops : Stops after) :
    ¬ BeginsNumeral (c :: after) := by
  have alone : ¬ BeginsNumeral [c] := by
    intro begins
    exact noNumeral (begins.mono ⟨rest, rfl⟩)
  have scanned := Numeral.scan_append stops [c]
  rw [not_beginsNumeral_iff.1 alone] at scanned
  exact not_beginsNumeral_iff.2 scanned

namespace Token

variable {last : Option Token}

theorem readsBack_numeral_of_value {front : List Char} {value : Float} (isNumeral : IsNumeral front)
    (isValue : readFloat? (String.ofList front) = some value) :
    ReadsBack last (.ofNumber (String.ofList front) value) := by
  obtain ⟨numeral, written, rfl⟩ := isNumeral
  have read := @readFloat?_chars ⟨none, numeral⟩ written
  obtain rfl := Option.some.inj (isValue.symm.trans read)
  exact readsBack_numeral written last

theorem readsBack_signed_of_value {sign : Sign} {front : List Char} {value : Float}
    (isNumeral : IsNumeral front) (position : UnaryPosition last)
    (isValue : readFloat? (String.ofList (sign.char :: front)) = some value) :
    ReadsBack last (.ofNumber (String.ofList (sign.char :: front)) value) := by
  obtain ⟨numeral, written, rfl⟩ := isNumeral
  have read := @readFloat?_chars ⟨some sign, numeral⟩ written
  obtain rfl := Option.some.inj (isValue.symm.trans read)
  have back := readsBack_signed written sign (isUnaryAfter_iff.2 position)
  simpa [SignedNumeral.toFloat] using back

theorem readsBack_symbol {c : Char} {kind : TokenKind}
    (isNext : ∀ rest, Stops rest → Piece.next last c rest = (.symbol c, rest))
    (isToken : (Piece.symbol c).tokens last = [⟨String.singleton c, kind, none⟩]) :
    ReadsBack last ⟨String.singleton c, kind, none⟩ := by
  intro rest stops
  rw [String.toList_singleton, List.singleton_append, Piece.read_cons, isNext rest stops]
  simp [isToken]

theorem readsBack_function {name : String} (isFunction : name ∈ functionNames) :
    ReadsBack last (function name) := by
  have words : ∀ name ∈ functionNames, isWord name = true ∧ ofWord name = function name := by
    decide +kernel
  obtain ⟨word, same⟩ := words name isFunction
  rw [← same]
  exact readsBack_word word (by rw [same]; rfl) last

theorem readsBack_unit (unit : ByteUnit) : ReadsBack last (Token.unit unit.name) := by
  obtain ⟨word, same⟩ := unit.isWord_name
  rw [← same]
  exact readsBack_word word (by rw [same]; rfl) last

end Token

namespace Cut

open Token

variable {last : Option Token}

/-- The tokens of a piece read back after the token in front of it. -/
theorem allReadBack {front rest : List Char} {tokens : List Token}
    (cut : Cut last front rest tokens) : AllReadBack last tokens := by
  cases cut with
  | blank => trivial
  | plus => trivial
  | minus position =>
    have one : IsNumeral ['1'] := isNumeral_digit (by decide)
    have isValue : readFloat? (String.ofList [Sign.minus.char, '1']) = some (-Binary64.one) := by
      decide +kernel
    refine ⟨@readsBack_signed_of_value last .minus _ _ one position isValue, ?_⟩
    exact ⟨readsBack_operator (by decide) rfl, trivial⟩
  | numeral longest isValue => exact ⟨readsBack_numeral_of_value longest.kind isValue, trivial⟩
  | @signed sign front rest value isSign position longest isValue =>
    obtain ⟨read, rfl⟩ := Sign.exists_of_mem isSign
    exact ⟨readsBack_signed_of_value longest.kind position isValue, trivial⟩
  | function _ isFunction => exact ⟨readsBack_function isFunction, trivial⟩
  | @unit _ _ unit => exact ⟨readsBack_unit unit, trivial⟩
  | name longest noFunction noUnit =>
    obtain ⟨first, part, rfl, start, parts⟩ := longest.kind
    have isWord := isWord_iff.2 ⟨first, part, String.toList_ofList, start, parts⟩
    have same := ofWord_of_neither noFunction noUnit
    rw [← same]
    exact ⟨readsBack_word isWord (by rw [same]; rfl) last, trivial⟩
  | operator isOperator binary =>
    refine ⟨readsBack_symbol ?_ (Piece.tokens_operator isOperator), trivial⟩
    intro rest _
    exact Piece.next_single (Piece.mem_singles isOperator) binary
  | opening => exact ⟨readsBack_leftParen last, trivial⟩
  | closing noOpening =>
    refine ⟨readsBack_rightParen ?_, trivial⟩
    simpa [Option.any_eq_false] using noOpening
  | closingEmpty =>
    have zero : IsNumeral ['0'] := isNumeral_digit (by decide)
    refine ⟨readsBack_numeral_of_value zero (by decide +kernel), ?_⟩
    exact ⟨readsBack_rightParen rfl, trivial⟩
  | @unknown c _ visible noNumeral noWord noOperator noOpening noClosing =>
    have noSign := Sign.not_mem_of_not_operator noOperator
    refine ⟨readsBack_symbol ?_ (Piece.tokens_unknown noOperator noOpening noClosing), trivial⟩
    intro rest stops
    exact Piece.next_symbol visible (not_beginsNumeral_of_stops noNumeral stops) noWord
      fun member => absurd member noSign

end Cut

theorem Division.allReadBack {last : Option Token} {characters : List Char}
    {pieces : List (List Char × List Token)} (division : Division last characters pieces) :
    Token.AllReadBack last (pieces.flatMap Prod.snd) := by
  induction division with
  | done => trivial
  | piece cut _ inner => exact Token.allReadBack_append cut.allReadBack inner

theorem allReadBack_tokenize (text : String) : Token.AllReadBack none (tokenize text) := by
  obtain ⟨pieces, division, tokens⟩ := Piece.exists_division none text.toList
  have back := division.allReadBack
  rwa [tokens] at back

/-- The tokens of a text, written with single blanks between them, mean the same as the text: they
are read as the same tokens, texts, kinds and numbers, and are evaluated as the text is. -/
theorem sameMeaning_texts (text : String) :
    SameMeaning (String.intercalate " " (TokenSequence.texts (tokenize text))) text :=
  sameMeaning_of_tokens (Token.tokenize_intercalate (allReadBack_tokenize text))

example : TokenSequence.texts (tokenize "-x SIN()+ .5.e") =
    ["-1", "*", "x", "sin", "(", "0", ")", "+", ".5", ".", "e"] := by
  decide +kernel

end Reckoner
