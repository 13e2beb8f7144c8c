import Reckoner.Proofs.Expression.Tokens
import Reckoner.Proofs.Lexed
import Reckoner.Proofs.Longest

/-!
# The division of a text

What the tokens of a text are, said without the reader: the text is divided into consecutive pieces,
and each piece is a blank, a sign that is dropped or negates, a longest numeral with the sign in
front of it where no operand precedes that sign, a longest identifier, or a single other character.
A text has one division, so no character is left out, read twice or put in another piece, and the
tokens of the pieces are those that are read.
-/

set_option autoImplicit false

namespace Reckoner

open Text

/-- Where a sign belongs to what follows it: nothing has been read, or the last token opens a
parenthesis, names a function or is an operator other than the factorial. -/
def UnaryPosition (last : Option Token) : Prop :=
  ∀ token ∈ last, token.kind = .leftParen ∨ token.kind = .function ∨
    (token.kind = .operator ∧ token.text ≠ "!")

theorem isUnaryAfter_iff {last : Option Token} :
    Token.isUnaryAfter last = true ↔ UnaryPosition last := by
  cases last with
  | none => simp [Token.isUnaryAfter, UnaryPosition]
  | some token => simp [Token.isUnaryAfter, UnaryPosition, or_assoc]

def BeginsNumeral (characters : List Char) : Prop :=
  ∃ front, IsNumeral front ∧ front <+: characters

theorem not_beginsNumeral_iff {characters : List Char} :
    ¬ BeginsNumeral characters ↔ Numeral.scan characters = none := by
  rw [Numeral.scan_eq_none_iff]
  simp [BeginsNumeral]

/-- The pieces that may be cut off a text after the last token so far: the characters of the piece,
those it leaves, and the tokens that it gives. -/
inductive Cut (last : Option Token) : List Char → List Char → List Token → Prop where
  | blank {c : Char} {rest : List Char} : isBlank c = true → Cut last [c] rest []
  | plus {rest : List Char} : UnaryPosition last → ¬ BeginsNumeral rest → Cut last ['+'] rest []
  | minus {rest : List Char} : UnaryPosition last → ¬ BeginsNumeral rest →
      Cut last ['-'] rest [.ofNumber "-1" (-Binary64.one), .operator "*"]
  | numeral {front rest : List Char} {value : Float} : Longest IsNumeral front rest →
      readFloat? (String.ofList front) = some value →
      Cut last front rest [.ofNumber (String.ofList front) value]
  | signed {sign : Char} {front rest : List Char} {value : Float} : sign ∈ ['+', '-'] →
      UnaryPosition last → Longest IsNumeral front rest →
      readFloat? (String.ofList (sign :: front)) = some value →
      Cut last (sign :: front) rest [.ofNumber (String.ofList (sign :: front)) value]
  | function {front rest : List Char} : Longest IsIdentifier front rest →
      lowerCase (String.ofList front) ∈ Token.functionNames →
      Cut last front rest [.function (lowerCase (String.ofList front))]
  | unit {front rest : List Char} {unit : ByteUnit} : Longest IsIdentifier front rest →
      lowerCase (String.ofList front) = unit.name → Cut last front rest [.unit unit.name]
  | name {front rest : List Char} : Longest IsIdentifier front rest →
      lowerCase (String.ofList front) ∉ Token.functionNames →
      (∀ unit : ByteUnit, lowerCase (String.ofList front) ≠ unit.name) →
      Cut last front rest [.name (String.ofList front)]
  | operator {c : Char} {rest : List Char} : String.singleton c ∈ Token.operatorTexts →
      (c ∈ ['+', '-'] → ¬ UnaryPosition last) →
      Cut last [c] rest [.operator (String.singleton c)]
  | opening {rest : List Char} : Cut last ['('] rest [.leftParen]
  | closing {rest : List Char} : (∀ token ∈ last, token.kind ≠ .leftParen) →
      Cut last [')'] rest [.rightParen]
  | closingEmpty {opening : Token} {rest : List Char} : opening ∈ last →
      opening.kind = .leftParen → Cut last [')'] rest [.ofNumber "0" Binary64.zero, .rightParen]
  | unknown {c : Char} {rest : List Char} : isBlank c = false → ¬ BeginsNumeral (c :: rest) →
      isWordStart c = false → String.singleton c ∉ Token.operatorTexts → c ≠ '(' → c ≠ ')' →
      Cut last [c] rest [⟨String.singleton c, .unknown, none⟩]

/-- Consecutive pieces that are together the text after the given token, each with its tokens. -/
inductive Division : Option Token → List Char → List (List Char × List Token) → Prop where
  | done {last : Option Token} : Division last [] []
  | piece {last : Option Token} {front rest : List Char} {tokens : List Token}
      {pieces : List (List Char × List Token)} : Cut last front rest tokens →
      Division (tokens.getLast?.or last) rest pieces →
      Division last (front ++ rest) ((front, tokens) :: pieces)

/-! ## Identifiers and single characters -/

theorem Sign.exists_of_mem {c : Char} (member : c ∈ ['+', '-']) : ∃ sign : Sign, sign.char = c := by
  simp only [List.mem_cons, List.not_mem_nil, or_false] at member
  rcases member with rfl | rfl
  · exact ⟨.plus, rfl⟩
  · exact ⟨.minus, rfl⟩

theorem Sign.not_mem_of_not_operator {c : Char}
    (noOperator : String.singleton c ∉ Token.operatorTexts) : c ∉ ['+', '-'] := by
  intro member
  obtain ⟨sign, rfl⟩ := Sign.exists_of_mem member
  cases sign with
  | plus => exact noOperator (by decide)
  | minus => exact noOperator (by decide)

namespace Token

variable {word : String}

theorem ofWord_of_function (isFunction : lowerCase word ∈ functionNames) :
    ofWord word = function (lowerCase word) := by
  simp [ofWord, isFunction, function]

theorem ofWord_of_unit {unit' : ByteUnit} (isUnit : lowerCase word = unit'.name) :
    ofWord word = unit unit'.name := by
  have noFunction : unit'.name ∉ functionNames := by
    cases unit' <;> decide
  simp [ofWord, isUnit, noFunction, ByteUnit.ofName?_name, unit]

theorem ofWord_of_neither (noFunction : lowerCase word ∉ functionNames)
    (noUnit : ∀ unit : ByteUnit, lowerCase word ≠ unit.name) : ofWord word = name word := by
  have none : (ByteUnit.ofName? (lowerCase word)).isSome = false := by
    cases found : ByteUnit.ofName? (lowerCase word) with
    | none => rfl
    | some unit =>
      unfold ByteUnit.ofName? at found
      have same := List.find?_some found
      exact absurd (beq_iff_eq.1 same).symm (noUnit unit)
  simp [ofWord, noFunction, none, name]

end Token

theorem Cut.ofWord {last : Option Token} {front rest : List Char}
    (longest : Longest IsIdentifier front rest) :
    Cut last front rest [.ofWord (String.ofList front)] := by
  by_cases isFunction : lowerCase (String.ofList front) ∈ Token.functionNames
  · rw [Token.ofWord_of_function isFunction]
    exact .function longest isFunction
  · by_cases isUnit : ∃ unit : ByteUnit, lowerCase (String.ofList front) = unit.name
    · obtain ⟨unit, same⟩ := isUnit
      rw [Token.ofWord_of_unit same]
      exact .unit longest same
    · have noUnit (unit : ByteUnit) (same : lowerCase (String.ofList front) = unit.name) : False :=
        isUnit ⟨unit, same⟩
      rw [Token.ofWord_of_neither isFunction noUnit]
      exact .name longest isFunction noUnit

namespace Piece

variable {last : Option Token} {c : Char} {rest : List Char}

theorem tokens_operator (isOperator : String.singleton c ∈ Token.operatorTexts) :
    (symbol c).tokens last = [.operator (String.singleton c)] := by
  have other : c ≠ ')' := by
    rintro rfl
    exact absurd isOperator (by decide)
  simp [tokens, symbolToken, isOperator, other, Token.operator]

theorem tokens_closing (noOpening : ∀ token ∈ last, token.kind ≠ .leftParen) :
    (symbol ')').tokens last = [.rightParen] := by
  have filled : last.any (·.kind = .leftParen) = false := by
    cases last with
    | none => rfl
    | some token => simpa using noOpening token rfl
  simp only [tokens, filled]
  rfl

theorem tokens_closingEmpty {opening : Token} (isLast : opening ∈ last)
    (isOpening : opening.kind = .leftParen) :
    (symbol ')').tokens last = [.ofNumber "0" Binary64.zero, .rightParen] := by
  rw [Option.mem_def.1 isLast]
  simp only [tokens, Option.any_some, isOpening]
  rfl

theorem tokens_unknown (noOperator : String.singleton c ∉ Token.operatorTexts)
    (noOpening : c ≠ '(') (noClosing : c ≠ ')') :
    (symbol c).tokens last = [⟨String.singleton c, .unknown, none⟩] := by
  simp [tokens, symbolToken, noOperator, noOpening, noClosing]

end Piece

/-- What is neither blank nor begins a numeral or a word is cut off as a single character. -/
theorem Cut.symbol {last : Option Token} {c : Char} {rest : List Char} (visible : isBlank c = false)
    (noNumeral : ¬ BeginsNumeral (c :: rest)) (noWord : isWordStart c = false)
    (binary : c ∈ ['+', '-'] → ¬ UnaryPosition last) :
    Cut last [c] rest ((Piece.symbol c).tokens last) := by
  by_cases isOperator : String.singleton c ∈ Token.operatorTexts
  · rw [Piece.tokens_operator isOperator]
    exact .operator isOperator binary
  by_cases isOpening : c = '('
  · subst isOpening
    exact .opening
  by_cases isClosing : c = ')'
  · subst isClosing
    by_cases empty : ∃ opening ∈ last, opening.kind = .leftParen
    · obtain ⟨opening, isLast, kind⟩ := empty
      rw [Piece.tokens_closingEmpty isLast kind]
      exact .closingEmpty isLast kind
    · have filled : ∀ token ∈ last, token.kind ≠ .leftParen :=
        fun token isLast kind => empty ⟨token, isLast, kind⟩
      rw [Piece.tokens_closing filled]
      exact .closing filled
  · rw [Piece.tokens_unknown isOperator isOpening isClosing]
    exact .unknown visible noNumeral noWord isOperator isOpening isClosing

/-! ## Cuts and pieces -/

namespace Piece

variable {last : Option Token} {c : Char} {rest : List Char}

theorem ofChar?_eq_none_iff : Sign.ofChar? c = none ↔ c ∉ ['+', '-'] := by
  unfold Sign.ofChar?
  split
  · simp_all
  · split
    · simp_all
    · simp_all

theorem binary_of_ofChar? (noSign : Sign.ofChar? c = none) (member : c ∈ ['+', '-']) :
    ¬ UnaryPosition last :=
  absurd member (ofChar?_eq_none_iff.1 noSign)

theorem mem_of_ofChar? {sign : Sign} (isSign : Sign.ofChar? c = some sign) : c ∈ ['+', '-'] := by
  rw [← Sign.char_of_ofChar? isSign]
  cases sign <;> decide

theorem next_unsigned (visible : isBlank c = false)
    (binary : c ∈ ['+', '-'] → ¬ UnaryPosition last) :
    next last c rest = unsigned c rest := by
  unfold next
  rw [if_neg (by simp [visible])]
  cases isSign : Sign.ofChar? c with
  | none => rfl
  | some sign =>
    have member := mem_of_ofChar? isSign
    have noUnary := mt isUnaryAfter_iff.1 (binary member)
    simp [noUnary]

theorem next_symbol (visible : isBlank c = false) (noNumeral : ¬ BeginsNumeral (c :: rest))
    (noWord : isWordStart c = false) (binary : c ∈ ['+', '-'] → ¬ UnaryPosition last) :
    next last c rest = (symbol c, rest) := by
  rw [next_unsigned visible binary, unsigned, not_beginsNumeral_iff.1 noNumeral]
  simp [noWord]

theorem next_sign (sign : Sign) (position : UnaryPosition last) (noNumeral : ¬ BeginsNumeral rest) :
    next last sign.char rest = (.sign sign, rest) := by
  have visible : isBlank sign.char = false := by
    cases sign <;> decide
  simp [next, visible, Sign.ofChar?_char, isUnaryAfter_iff.2 position,
    not_beginsNumeral_iff.1 noNumeral]

theorem next_signed (sign : Sign) (position : UnaryPosition last) {found : Numeral}
    {after : List Char} (scanned : Numeral.scan rest = some (found, after)) :
    next last sign.char rest = (numeral ⟨some sign, found⟩, after) := by
  have visible : isBlank sign.char = false := by
    cases sign <;> decide
  simp [next, visible, Sign.ofChar?_char, isUnaryAfter_iff.2 position, scanned]

theorem cut_unsigned (visible : isBlank c = false)
    (binary : c ∈ ['+', '-'] → ¬ UnaryPosition last) :
    Cut last (unsigned c rest).1.chars (unsigned c rest).2 ((unsigned c rest).1.tokens last) := by
  unfold unsigned
  cases scanned : Numeral.scan (c :: rest) with
  | some pair =>
    obtain ⟨found, after⟩ := pair
    have written := Numeral.isWritten_of_scan scanned
    exact .numeral (Numeral.longest_of_scan scanned) (@readFloat?_chars ⟨none, found⟩ written)
  | none =>
    by_cases start : isWordStart c = true
    · simp only [start, if_true]
      exact .ofWord (longest_identifier start rest)
    · have noWord := Bool.eq_false_iff.2 start
      simp only [noWord]
      exact .symbol visible (not_beginsNumeral_iff.2 scanned) noWord binary

/-- The first piece of a text is cut off it. -/
theorem cut_next (last : Option Token) (c : Char) (rest : List Char) :
    Cut last (next last c rest).1.chars (next last c rest).2
      ((next last c rest).1.tokens last) := by
  by_cases hidden : isBlank c = true
  · simp only [next, hidden, if_true]
    exact .blank hidden
  have visible := Bool.eq_false_iff.2 hidden
  cases isSign : Sign.ofChar? c with
  | none =>
    rw [next_unsigned visible (binary_of_ofChar? isSign)]
    exact cut_unsigned visible (binary_of_ofChar? isSign)
  | some sign =>
    by_cases position : UnaryPosition last
    · have member := mem_of_ofChar? isSign
      obtain rfl := Sign.char_of_ofChar? isSign
      cases scanned : Numeral.scan rest with
      | some pair =>
        obtain ⟨found, after⟩ := pair
        have written := Numeral.isWritten_of_scan scanned
        rw [next_signed sign position scanned]
        exact .signed member position (Numeral.longest_of_scan scanned)
          (@readFloat?_chars ⟨some sign, found⟩ written)
      | none =>
        have noNumeral := not_beginsNumeral_iff.2 scanned
        rw [next_sign sign position noNumeral]
        cases sign with
        | plus => exact .plus position noNumeral
        | minus => exact .minus position noNumeral
    · rw [next_unsigned visible fun _ => position]
      exact cut_unsigned visible fun _ => position

theorem next_numeral {front : List Char} (longest : Longest IsNumeral front rest) :
    ∃ first part found, front = first :: part ∧ found.IsWritten ∧ found.chars = front ∧
      next last first (part ++ rest) = (numeral ⟨none, found⟩, rest) := by
  obtain ⟨found, written, rfl, scanned⟩ := Numeral.scan_of_longest longest
  obtain ⟨first, part, shape, visible, noSign⟩ := found.chars_head_visible written
  refine ⟨first, part, found, shape, written, rfl, ?_⟩
  rw [shape, List.cons_append] at scanned
  rw [next_unsigned visible (binary_of_ofChar? noSign), unsigned, scanned]

theorem next_identifier {front : List Char} (longest : Longest IsIdentifier front rest) :
    ∃ first part, front = first :: part ∧
      next last first (part ++ rest) = (word first part, rest) := by
  obtain ⟨first, part, shape, start, taken, left⟩ := identifier_of_longest longest
  have noSign := Sign.ofChar?_of_isWordStart start
  refine ⟨first, part, shape, ?_⟩
  rw [next_unsigned (not_isBlank_of_isWordStart start) (binary_of_ofChar? noSign), unsigned,
    scan_of_isWordStart start, taken, left]
  simp [start]

/-- The characters that are operators and parentheses. -/
def singles : List Char := ['+', '-', '*', '/', '^', '!', '=', '(', ')']

theorem mem_singles (isOperator : String.singleton c ∈ Token.operatorTexts) : c ∈ singles := by
  have isText : [c] ∈ Token.operatorTexts.map String.toList := by
    rw [← String.toList_singleton]
    exact List.mem_map_of_mem isOperator
  have texts : Token.operatorTexts.map String.toList ⊆ singles.map fun single => [single] := by
    decide
  obtain ⟨single, member, same⟩ := List.mem_map.1 (texts isText)
  rwa [← (List.cons.inj same).1]

theorem next_single (isSingle : c ∈ singles) (binary : c ∈ ['+', '-'] → ¬ UnaryPosition last) :
    next last c rest = (symbol c, rest) := by
  have facts : isBlank c = false ∧ isDigit c = false ∧ c ≠ '.' ∧ isWordStart c = false := by
    simp only [singles, List.mem_cons, List.not_mem_nil, or_false] at isSingle
    rcases isSingle with rfl | rfl | rfl | rfl | rfl | rfl | rfl | rfl | rfl <;> decide
  obtain ⟨visible, noDigit, noPoint, noWord⟩ := facts
  have noNumeral := not_beginsNumeral_iff.2 (scan_eq_none noDigit noPoint rest)
  exact next_symbol visible noNumeral noWord binary

end Piece

namespace Cut

variable {last : Option Token}

/-- What is cut off a text is its first piece. -/
theorem next {front rest : List Char} {tokens : List Token} (cut : Cut last front rest tokens) :
    ∃ c tail piece, front = c :: tail ∧ Piece.next last c (tail ++ rest) = (piece, rest) ∧
      piece.chars = front ∧ piece.tokens last = tokens := by
  cases cut with
  | @blank c _ blank =>
    refine ⟨c, [], .blank c, rfl, ?_, rfl, rfl⟩
    simp [Piece.next, blank]
  | plus position noNumeral =>
    exact ⟨'+', [], .sign .plus, rfl, Piece.next_sign .plus position noNumeral, rfl, rfl⟩
  | minus position noNumeral =>
    exact ⟨'-', [], .sign .minus, rfl, Piece.next_sign .minus position noNumeral, rfl, rfl⟩
  | numeral longest isValue =>
    obtain ⟨first, part, found, shape, written, rfl, isNext⟩ := @Piece.next_numeral last _ _ longest
    have value := @readFloat?_chars ⟨none, found⟩ written
    obtain rfl := Option.some.inj (isValue.symm.trans value)
    exact ⟨first, part, .numeral ⟨none, found⟩, shape, isNext, rfl, rfl⟩
  | @signed sign front rest value isSign position longest isValue =>
    obtain ⟨found, written, rfl, scanned⟩ := Numeral.scan_of_longest longest
    obtain ⟨read, rfl⟩ := Sign.exists_of_mem isSign
    have value := @readFloat?_chars ⟨some read, found⟩ written
    obtain rfl := Option.some.inj (isValue.symm.trans value)
    exact ⟨read.char, found.chars, .numeral ⟨some read, found⟩, rfl,
      Piece.next_signed read position scanned, rfl, rfl⟩
  | function longest isFunction =>
    obtain ⟨first, part, rfl, isNext⟩ := @Piece.next_identifier last _ _ longest
    exact ⟨first, part, .word first part, rfl, isNext, rfl,
      congrArg List.singleton (Token.ofWord_of_function isFunction)⟩
  | unit longest isUnit =>
    obtain ⟨first, part, rfl, isNext⟩ := @Piece.next_identifier last _ _ longest
    exact ⟨first, part, .word first part, rfl, isNext, rfl,
      congrArg List.singleton (Token.ofWord_of_unit isUnit)⟩
  | name longest noFunction noUnit =>
    obtain ⟨first, part, rfl, isNext⟩ := @Piece.next_identifier last _ _ longest
    exact ⟨first, part, .word first part, rfl, isNext, rfl,
      congrArg List.singleton (Token.ofWord_of_neither noFunction noUnit)⟩
  | @operator c _ isOperator binary =>
    exact ⟨c, [], .symbol c, rfl, Piece.next_single (Piece.mem_singles isOperator) binary, rfl,
      Piece.tokens_operator isOperator⟩
  | opening =>
    exact ⟨'(', [], .symbol '(', rfl, Piece.next_single (by decide) (by simp), rfl, rfl⟩
  | closing noOpening =>
    exact ⟨')', [], .symbol ')', rfl, Piece.next_single (by decide) (by simp), rfl,
      Piece.tokens_closing noOpening⟩
  | closingEmpty isLast isOpening =>
    exact ⟨')', [], .symbol ')', rfl, Piece.next_single (by decide) (by simp), rfl,
      Piece.tokens_closingEmpty isLast isOpening⟩
  | @unknown c _ visible noNumeral noWord noOperator noOpening noClosing =>
    have noSign := Sign.not_mem_of_not_operator noOperator
    exact ⟨c, [], .symbol c, rfl,
      Piece.next_symbol visible noNumeral noWord (fun member => absurd member noSign), rfl,
      Piece.tokens_unknown noOperator noOpening noClosing⟩

theorem unique {front rest other after : List Char} {tokens others : List Token}
    (first : Cut last front rest tokens) (second : Cut last other after others)
    (same : front ++ rest = other ++ after) : front = other ∧ rest = after ∧ tokens = others := by
  obtain ⟨c, tail, piece, rfl, isNext, isFront, rfl⟩ := first.next
  obtain ⟨head, part, found, rfl, isFound, isOther, rfl⟩ := second.next
  rw [List.cons_append, List.cons_append] at same
  obtain ⟨rfl, sameRest⟩ := List.cons.inj same
  rw [sameRest, isFound] at isNext
  obtain ⟨rfl, rfl⟩ := Prod.mk.inj isNext
  exact ⟨isFront.symm.trans isOther, rfl, rfl⟩

end Cut

namespace Division

variable {last : Option Token} {characters : List Char} {pieces : List (List Char × List Token)}

theorem flatMap_fst (division : Division last characters pieces) :
    pieces.flatMap Prod.fst = characters := by
  induction division with
  | done => rfl
  | piece cut _ inner => rw [List.flatMap_cons, inner]

theorem unique {others : List (List Char × List Token)} (division : Division last characters pieces)
    (other : Division last characters others) : pieces = others := by
  induction division generalizing others with
  | done =>
    generalize empty : ([] : List Char) = text at other
    cases other with
    | done => rfl
    | piece cut _ =>
      obtain ⟨c, tail, -, rfl, -⟩ := cut.next
      cases empty
  | @piece last front rest tokens pieces cut _ inner =>
    generalize whole : front ++ rest = text at other
    cases other with
    | done =>
      obtain ⟨c, tail, -, rfl, -⟩ := cut.next
      cases whole
    | @piece _ _ _ _ _ otherCut following =>
      obtain ⟨rfl, rfl, rfl⟩ := cut.unique otherCut whole
      rw [inner following]

end Division

theorem Piece.exists_division (last : Option Token) (characters : List Char) :
    ∃ pieces, Division last characters pieces ∧
      pieces.flatMap Prod.snd = Piece.allTokens last (Piece.divide last characters) := by
  fun_induction Piece.divide last characters with
  | case1 last => exact ⟨[], .done, rfl⟩
  | case2 last c rest found inner =>
    obtain ⟨pieces, division, tokens⟩ := inner
    have whole := next_chars last c rest
    refine ⟨(found.1.chars, found.1.tokens last) :: pieces, ?_, ?_⟩
    · rw [← whole]
      exact .piece (cut_next last c rest) division
    · rw [List.flatMap_cons, tokens]
      rfl

/-- Every text has one division, and the tokens of its pieces are those that are read from it. -/
theorem tokenize_divides (text : String) :
    ∃ pieces, Division none text.toList pieces ∧ pieces.flatMap Prod.fst = text.toList ∧
      pieces.flatMap Prod.snd = tokenize text ∧
      ∀ others, Division none text.toList others → others = pieces := by
  obtain ⟨pieces, division, tokens⟩ := Piece.exists_division none text.toList
  refine ⟨pieces, division, division.flatMap_fst, tokens, ?_⟩
  intro others other
  exact other.unique division

example : (tokenize "+-+4 2e 1.2.3").map Token.text = ["-1", "*", "+4", "2", "e", "1.2", ".3"] := by
  decide +kernel

end Reckoner
