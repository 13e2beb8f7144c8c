import Reckoner.Evaluation
import Reckoner.Proofs.Pieces
import Reckoner.Proofs.Reading

/-!
# The tokens of a text

Facts that hold of every token that is read from a text, and not of tokens built by hand: each one
stands for a number in every table of variables, the text of a numeral is accepted by the reader of
doubles with the token's own number, and an assignment is read only from its character.
-/

set_option autoImplicit false

namespace Reckoner

open Text

/-! ## Numerals and the reader of doubles -/

theorem ungroup?_of_not_mem {characters : List Char} (absent : '_' ∉ characters)
    (afterDigit : Bool) : ungroup? afterDigit characters = some characters := by
  induction characters generalizing afterDigit with
  | nil => rfl
  | cons c characters inner =>
    have other : c ≠ '_' := fun same => absent (same ▸ List.mem_cons_self)
    have later := inner (fun member => absent (List.mem_cons_of_mem c member)) (isDigit c)
    simp [ungroup?, other, later]

namespace Exponent

theorem mem_chars {exponent : Exponent} (written : exponent.IsWritten) {c : Char}
    (member : c ∈ exponent.chars) :
    isDigit c = true ∨ c = 'e' ∨ c = 'E' ∨ c = '+' ∨ c = '-' := by
  obtain ⟨mark, sign, digits⟩ := exponent
  simp only [chars, List.cons_append, List.mem_cons, List.mem_append] at member
  rcases member with rfl | isSign | digit
  · rcases written.mark with same | same
    · exact .inr (.inl same)
    · exact .inr (.inr (.inl same))
  · cases sign with
    | none => cases isSign
    | some sign =>
      cases sign with
      | plus => exact .inr (.inr (.inr (.inl (List.mem_singleton.1 isSign))))
      | minus => exact .inr (.inr (.inr (.inr (List.mem_singleton.1 isSign))))
  · exact .inl (written.digits c digit)

end Exponent

namespace Numeral

/-- The characters that a written numeral is made of. -/
theorem mem_chars {numeral : Numeral} (written : numeral.IsWritten) {c : Char}
    (member : c ∈ numeral.chars) :
    isDigit c = true ∨ c = '.' ∨ c = 'e' ∨ c = 'E' ∨ c = '+' ∨ c = '-' := by
  obtain ⟨whole, fraction, exponent⟩ := numeral
  simp only [chars, List.append_assoc, List.mem_append] at member
  rcases member with digit | places | power
  · exact .inl (written.whole c digit)
  · cases fraction with
    | none => cases places
    | some places' =>
      rcases List.mem_cons.1 places with rfl | digit
      · exact .inr (.inl rfl)
      · exact .inl (written.fraction c digit)
  · cases exponent with
    | none => cases power
    | some exponent =>
      rcases Exponent.mem_chars (written.exponent exponent rfl) power with digit | mark
      · exact .inl digit
      · exact .inr (.inr mark)

end Numeral

namespace SignedNumeral

theorem mem_chars {signed : SignedNumeral} (written : signed.numeral.IsWritten) {c : Char}
    (member : c ∈ signed.chars) :
    isDigit c = true ∨ c = '.' ∨ c = 'e' ∨ c = 'E' ∨ c = '+' ∨ c = '-' := by
  obtain ⟨sign, numeral⟩ := signed
  rcases List.mem_append.1 member with isSign | digit
  · cases sign with
    | none => cases isSign
    | some sign =>
      obtain rfl := List.mem_singleton.1 isSign
      cases sign with
      | plus => simp [Sign.char]
      | minus => simp [Sign.char]
  · exact Numeral.mem_chars written digit

theorem not_isBlank_of_mem_chars {signed : SignedNumeral} (written : signed.numeral.IsWritten)
    {c : Char} (member : c ∈ signed.chars) : isBlank c = false := by
  rcases mem_chars written member with digit | rfl | rfl | rfl | rfl | rfl
  · apply Bool.eq_false_iff.2
    intro blank
    simp [not_isDigit_of_isBlank blank] at digit
  · decide
  · decide
  · decide
  · decide
  · decide

theorem not_mem_chars_underscore {signed : SignedNumeral} (written : signed.numeral.IsWritten) :
    '_' ∉ signed.chars := by
  intro member
  rcases mem_chars written member with digit | same | same | same | same | same
  · exact absurd digit (by decide)
  · exact absurd same (by decide)
  · exact absurd same (by decide)
  · exact absurd same (by decide)
  · exact absurd same (by decide)
  · exact absurd same (by decide)

theorem scan_sign_append {signed : SignedNumeral} (written : signed.numeral.IsWritten)
    (rest : List Char) :
    Sign.scan (signed.chars ++ rest) = (signed.sign, signed.numeral.chars ++ rest) := by
  obtain ⟨sign, numeral⟩ := signed
  cases sign with
  | some sign => simp [chars, Sign.scan, Sign.ofChar?_char]
  | none =>
    obtain ⟨first, others, shape, -, noSign⟩ := numeral.chars_head_visible written
    simp [chars, shape, Sign.scan, noSign]

theorem scan_sign {signed : SignedNumeral} (written : signed.numeral.IsWritten) :
    Sign.scan signed.chars = (signed.sign, signed.numeral.chars) := by
  simpa using scan_sign_append written []

/-- A numeral is more than one character, unless the character is a digit. -/
theorem scan_singleton {c : Char} (noDigit : isDigit c = false) : scan [c] = none := by
  cases isSign : Sign.ofChar? c with
  | some sign => simp [scan, Sign.scan, isSign, Numeral.scan]
  | none =>
    by_cases point : c = '.'
    · subst point
      rfl
    · simp [scan, Sign.scan, isSign, Numeral.scan, noDigit, point]

end SignedNumeral

/-- Nothing is taken from the ends of a list whose ends are outside of the class. -/
theorem trimBy_of_ends {member : Char → Bool} {characters : List Char}
    (front : ∀ c ∈ characters.head?, member c = false)
    (back : ∀ c ∈ characters.getLast?, member c = false) :
    trimBy member characters = characters := by
  have keep (others : List Char) (outside : ∀ c ∈ others.head?, member c = false) :
      others.dropWhile member = others := by
    cases others with
    | nil => rfl
    | cons c others => simp [outside c rfl]
  rw [trimBy, keep characters front, keep, List.reverse_reverse]
  rwa [List.head?_reverse]

theorem trimBy_of_forall {member : Char → Bool} {characters : List Char}
    (outside : ∀ c ∈ characters, member c = false) : trimBy member characters = characters :=
  trimBy_of_ends (fun c front => outside c (List.mem_of_mem_head? front))
    fun c back => outside c (List.mem_of_getLast? back)

theorem toLower_of_isDigit {c : Char} (digit : isDigit c = true) : c.toLower = c := by
  have noLetter : ¬ (c.val ≥ 'A'.val ∧ c.val ≤ 'Z'.val) := by
    intro letter
    have start : isWordStart c = true := by
      simp only [isWordStart, Bool.or_eq_true, Bool.and_eq_true, decide_eq_true_eq]
      exact .inl (.inl letter)
    simp [not_isDigit_of_isWordStart start] at digit
  exact dif_neg noLetter

theorem Numeral.map_toLower_ne {numeral : Numeral} (written : numeral.IsWritten) {first : Char}
    (noDigit : isDigit first = false) (noPoint : first ≠ '.') (part : List Char) :
    numeral.chars.map Char.toLower ≠ first :: part := by
  intro same
  obtain ⟨head, others, shape, isHead⟩ := numeral.chars_head written
  rw [shape, List.map_cons, List.cons.injEq] at same
  rcases isHead with digit | rfl
  · rw [toLower_of_isDigit digit] at same
    simp [← same.1, digit] at noDigit
  · exact noPoint same.1.symm

/-- The reader of doubles accepts every numeral and reads the number that the numeral stands for. -/
theorem readFloat?_chars {signed : SignedNumeral} (written : signed.numeral.IsWritten) :
    readFloat? (String.ofList signed.chars) = some signed.toFloat := by
  have trimmed : trimBy isSpace signed.chars = signed.chars := by
    apply trimBy_of_forall
    intro c member
    have visible := SignedNumeral.not_isBlank_of_mem_chars written member
    simp only [isBlank, Bool.or_eq_false_iff] at visible
    exact visible.1
  have ungrouped := ungroup?_of_not_mem (SignedNumeral.not_mem_chars_underscore written) false
  have whole : Numeral.scan signed.numeral.chars = some (signed.numeral, []) := by
    simpa using Numeral.scan_chars_append written stops_nil
  have noWord (first : Char) (part : List Char) (noDigit : isDigit first = false)
      (noPoint : first ≠ '.') :
      String.ofList (signed.numeral.chars.map Char.toLower) ≠ String.ofList (first :: part) :=
    fun same => Numeral.map_toLower_ne written noDigit noPoint part (String.ofList_injective same)
  have noInf : _ ≠ "inf" := noWord 'i' ['n', 'f'] (by decide) (by decide)
  have noInfinity : _ ≠ "infinity" :=
    noWord 'i' ['n', 'f', 'i', 'n', 'i', 't', 'y'] (by decide) (by decide)
  have noNan : _ ≠ "nan" := noWord 'n' ['a', 'n'] (by decide) (by decide)
  simp only [readFloat?, String.toList_ofList, trimmed, ungrouped, Option.bind_eq_bind,
    Option.bind_some, SignedNumeral.scan_sign written, whole, noInf, noInfinity, noNan,
    decide_false, Bool.or_self, Bool.false_eq_true, if_false]
  rfl

/-! ## Tokens -/

namespace Token

def Resolves (token : Token) : Prop :=
  ∀ table, ∃ number, Machine.resolve table (some token) = .ok number

theorem resolves_ofNumber (text : String) (number : Float) : (ofNumber text number).Resolves :=
  fun _ => ⟨number, rfl⟩

/-- A text that no numeral begins stands for zero. -/
theorem resolves_of_scan {token : Token}
    (noNumeral : SignedNumeral.scan (token.text.toList.dropWhile isBlank) = none) :
    token.Resolves := by
  intro table
  obtain ⟨text, kind, number?⟩ := token
  simp only [Machine.resolve]
  split
  · exact ⟨_, rfl⟩
  · cases number? with
    | some number => exact ⟨number, rfl⟩
    | none =>
      simp only [parseNumber, noNumeral]
      exact ⟨_, rfl⟩

theorem ofWord_cases (word : String) :
    (ofWord word).kind = .function ∧ (ofWord word).text ∈ functionNames ∨
      (∃ unit : ByteUnit, ofWord word = ⟨unit.name, .unit, none⟩) ∨
      ofWord word = ⟨word, .name, none⟩ := by
  simp only [ofWord]
  split
  · rename_i isFunction
    exact .inl ⟨rfl, List.contains_iff_mem.1 isFunction⟩
  · split
    · rename_i isUnit
      obtain ⟨unit, found⟩ := Option.isSome_iff_exists.1 isUnit
      unfold ByteUnit.ofName? at found
      have same := List.find?_some found
      exact .inr (.inl ⟨unit, by rw [beq_iff_eq.1 same]⟩)
    · exact .inr (.inr rfl)

theorem resolves_ofWord (word : String) : (ofWord word).Resolves := by
  rcases ofWord_cases word with ⟨-, isFunction⟩ | ⟨unit, isUnit⟩ | isName
  · have noNumeral : ∀ text ∈ functionNames,
        SignedNumeral.scan (text.toList.dropWhile isBlank) = none := by
      decide +kernel
    exact resolves_of_scan (noNumeral _ isFunction)
  · rw [isUnit]
    apply resolves_of_scan
    cases unit <;> decide +kernel
  · rw [isName]
    exact fun table => ⟨_, rfl⟩

theorem text_symbolToken (c : Char) : (Piece.symbolToken c).text = String.singleton c := by
  simp only [Piece.symbolToken]
  split
  · rfl
  · split
    · rfl
    · split
      · rfl
      · rfl

theorem kind_symbolToken (c : Char) :
    (Piece.symbolToken c).kind ∈ [TokenKind.operator, .leftParen, .rightParen, .unknown] := by
  simp only [Piece.symbolToken]
  split
  · simp
  · split
    · simp
    · split
      · simp
      · simp

theorem resolves_symbolToken {c : Char} (visible : isBlank c = false)
    (noDigit : isDigit c = false) : (Piece.symbolToken c).Resolves := by
  apply resolves_of_scan
  simp [text_symbolToken, visible, SignedNumeral.scan_singleton noDigit]

end Token

/-- What holds of the tokens of every shape of piece holds of all tokens of a text. -/
theorem Piece.forall_mem_read (property : Token → Prop) {previous : Option Token}
    {characters : List Char} (negation : property minusOne ∧ property (.operator "*"))
    (zero : property implicitZero)
    (isNumeral : ∀ signed : SignedNumeral, signed.numeral.IsWritten →
      property (.ofNumber (String.ofList signed.chars) signed.toFloat))
    (isWord : ∀ word : String, Text.isWord word = true → property (.ofWord word))
    (isSymbol : ∀ c ∈ characters, isBlank c = false → isDigit c = false →
      isWordStart c = false → property (symbolToken c)) :
    ∀ token ∈ read previous characters, property token := by
  intro token member
  obtain ⟨piece, wellFormed, inside, before, isToken⟩ := exists_of_mem_tokens member
  cases piece with
  | blank c => cases isToken
  | sign sign =>
    cases sign with
    | plus => cases isToken
    | minus =>
      simp only [tokens, List.mem_cons, List.not_mem_nil, or_false] at isToken
      rcases isToken with rfl | rfl
      · exact negation.1
      · exact negation.2
  | numeral signed =>
    obtain rfl := List.mem_singleton.1 isToken
    exact isNumeral signed wellFormed
  | word first rest =>
    obtain rfl := List.mem_singleton.1 isToken
    exact isWord _ (isWord_iff.2 ⟨first, rest, String.toList_ofList, wellFormed⟩)
  | symbol c =>
    have here := isSymbol c (inside List.mem_cons_self) wellFormed.1 wellFormed.2.1 wellFormed.2.2
    simp only [tokens] at isToken
    split at isToken
    · simp only [List.mem_cons, List.not_mem_nil, or_false] at isToken
      rcases isToken with rfl | rfl
      · exact zero
      · exact here
    · obtain rfl := List.mem_singleton.1 isToken
      exact here

theorem resolves_of_mem_read {previous : Option Token} {characters : List Char} :
    ∀ token ∈ Piece.read previous characters, token.Resolves := by
  refine Piece.forall_mem_read Token.Resolves ⟨?_, ?_⟩ ?_ ?_ ?_ ?_
  · exact Token.resolves_ofNumber _ _
  · exact Token.resolves_of_scan (by decide +kernel)
  · exact Token.resolves_ofNumber _ _
  · exact fun signed _ => Token.resolves_ofNumber _ _
  · exact fun word _ => Token.resolves_ofWord word
  · exact fun c _ visible noDigit _ => Token.resolves_symbolToken visible noDigit

/-- The text of a numeral that is read from a text is accepted by the reader of doubles, which reads
the token's number. -/
theorem readFloat?_of_mem_read {previous : Option Token} {characters : List Char} :
    ∀ token ∈ Piece.read previous characters, token.kind = .number →
      ∃ number, token.number? = some number ∧ readFloat? token.text = some number := by
  refine Piece.forall_mem_read _ ⟨?_, ?_⟩ ?_ ?_ ?_ ?_
  · exact fun _ => ⟨_, rfl, by decide +kernel⟩
  · exact fun isNumber => by cases isNumber
  · exact fun _ => ⟨_, rfl, by decide +kernel⟩
  · exact fun signed written _ => ⟨_, rfl, readFloat?_chars written⟩
  · intro word _ isNumber
    rcases Token.ofWord_cases word with ⟨isFunction, -⟩ | ⟨unit, isUnit⟩ | isName
    · simp [isFunction] at isNumber
    · simp [isUnit] at isNumber
    · simp [isName] at isNumber
  · intro c _ _ _ _ isNumber
    have kind := Token.kind_symbolToken c
    simp [isNumber] at kind

/-- An assignment is read from its character only. -/
theorem mem_of_assignment_mem_read {previous : Option Token} {characters : List Char} :
    ∀ token ∈ Piece.read previous characters, token.text = assignmentText →
      '=' ∈ characters := by
  refine Piece.forall_mem_read _ ⟨?_, ?_⟩ ?_ ?_ ?_ ?_
  · exact fun same => absurd same (by decide)
  · exact fun same => absurd same (by decide)
  · exact fun same => absurd same (by decide)
  · intro signed written same
    have shape : signed.chars = ['='] := String.ofList_injective same
    have allowed := SignedNumeral.mem_chars (c := '=') written (by simp [shape])
    exact absurd allowed (by decide)
  · intro word isWord same
    rcases Token.ofWord_cases word with ⟨-, isFunction⟩ | ⟨unit, isUnit⟩ | isName
    · rw [same] at isFunction
      exact absurd isFunction (by decide)
    · rw [isUnit] at same
      exact absurd same (by cases unit <;> decide)
    · rw [isName] at same
      rw [show word = assignmentText from same] at isWord
      exact absurd isWord (by decide)
  · intro c here _ _ _ same
    rw [Token.text_symbolToken] at same
    have shape : [c] = ['='] := by
      rw [← String.toList_singleton, same]
      rfl
    rwa [(List.cons.inj shape).1] at here

end Reckoner
