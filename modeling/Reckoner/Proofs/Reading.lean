import Reckoner.Proofs.Numeral

/-!
# Reading on after a token

Cutting a text into pieces and giving each piece its tokens are here one function of the last token
so far and the characters that are left. It is followed over the pieces of known texts, and over two
texts joined at a stop: the first text is read as if it stood alone, and the second as after the last
token of the first.
-/

set_option autoImplicit false

namespace Reckoner

open Text

namespace Text

def isWord (text : String) : Bool :=
  match text.toList with
  | [] => false
  | first :: part => isWordStart first && part.all isWordPart

theorem isWord_iff {text : String} :
    isWord text = true ↔ ∃ first part, text.toList = first :: part ∧
      isWordStart first = true ∧ ∀ c ∈ part, isWordPart c = true := by
  unfold isWord
  cases text.toList with
  | nil => simp
  | cons first part =>
    simp only [Bool.and_eq_true, List.all_eq_true, List.cons.injEq]
    constructor
    · intro parts
      exact ⟨first, part, ⟨rfl, rfl⟩, parts⟩
    · rintro ⟨_, _, ⟨rfl, rfl⟩, parts⟩
      exact parts

theorem isEmpty_of_isWord {text : String} (word : isWord text = true) : text.isEmpty = false := by
  apply Bool.eq_false_iff.2
  intro empty
  rw [String.isEmpty_iff] at empty
  rw [empty] at word
  exact absurd word (by decide)

end Text

namespace Token

def leftParen : Token := ⟨"(", .leftParen, none⟩

def rightParen : Token := ⟨")", .rightParen, none⟩

def operator (text : String) : Token := ⟨text, .operator, none⟩

end Token

namespace Piece

/-- The tokens of the characters that follow the given token. -/
def read (previous : Option Token) (characters : List Char) : List Token :=
  allTokens previous (divide previous characters)

theorem tokenize_eq_read (text : String) : tokenize text = read none text.toList := rfl

@[simp] theorem read_nil (previous : Option Token) : read previous [] = [] := by
  simp [read, divide, allTokens]

theorem read_cons (previous : Option Token) (c : Char) (rest : List Char) :
    read previous (c :: rest) =
      (next previous c rest).1.tokens previous ++
        read (((next previous c rest).1.tokens previous).getLast?.or previous)
          (next previous c rest).2 := by
  simp [read, divide, allTokens]

/-! ## Texts joined at a stop -/

theorem unsigned_append {c : Char} {characters rest : List Char} (stops : Stops rest) :
    unsigned c (characters ++ rest) =
      ((unsigned c characters).1, (unsigned c characters).2 ++ rest) := by
  have numeral := Numeral.scan_append stops (c :: characters)
  rw [List.cons_append] at numeral
  have part := takeWhile_append_of_stops characters
    fun c isHead => not_isWordPart_of_isStop (stops c isHead)
  unfold unsigned
  rw [numeral]
  cases Numeral.scan (c :: characters) with
  | some found => rfl
  | none =>
    simp only [Option.map_none, part.1, part.2]
    split
    · rfl
    · rfl

theorem next_append {previous : Option Token} {c : Char} {characters rest : List Char}
    (stops : Stops rest) :
    next previous c (characters ++ rest) =
      ((next previous c characters).1, (next previous c characters).2 ++ rest) := by
  unfold next
  rw [unsigned_append stops, Numeral.scan_append stops]
  split
  · rfl
  · cases Sign.ofChar? c with
    | none => rfl
    | some sign =>
      by_cases unary : Token.isUnaryAfter previous = true
      · cases Numeral.scan characters with
        | none => simp [unary]
        | some found => simp [unary]
      · simp [unary]

/-- What follows a stop has no part in how the text before it is read. -/
theorem read_append {rest : List Char} (stops : Stops rest) (characters : List Char) :
    ∀ previous : Option Token, read previous (characters ++ rest) =
      read previous characters ++ read ((read previous characters).getLast?.or previous) rest := by
  -- a piece leaves a shorter text, which need not be the tail of the one before
  induction bound : characters.length using Nat.strongRecOn generalizing characters with
  | ind length inner =>
    intro previous
    cases characters with
    | nil => simp
    | cons c characters =>
      subst bound
      have shorter := Nat.lt_succ_of_le (next_length_le previous c characters)
      rw [List.cons_append, read_cons, read_cons, next_append stops]
      simp only [inner _ shorter _ rfl, List.append_assoc, List.getLast?_append, Option.or_assoc]

/-! ## One piece at a time -/

theorem read_blank {c : Char} (blank : isBlank c = true) (previous : Option Token)
    (rest : List Char) : read previous (c :: rest) = read previous rest := by
  rw [read_cons]
  simp [next, blank, tokens]

theorem scan_eq_none {c : Char} (noDigit : isDigit c = false) (noPoint : c ≠ '.')
    (rest : List Char) : Numeral.scan (c :: rest) = none := by
  simp [Numeral.scan, noDigit, noPoint]

theorem scan_of_isWordStart {c : Char} (start : isWordStart c = true) (rest : List Char) :
    Numeral.scan (c :: rest) = none := by
  have noPoint : c ≠ '.' := by
    rintro rfl
    exact absurd start (by decide)
  exact scan_eq_none (not_isDigit_of_isWordStart start) noPoint rest

theorem scan_word {word : String} (isWord : Text.isWord word = true) (rest : List Char) :
    Numeral.scan (word.toList ++ rest) = none := by
  obtain ⟨first, part, shape, start, -⟩ := isWord_iff.1 isWord
  rw [shape]
  exact scan_of_isWordStart start (part ++ rest)

theorem read_numeral {numeral : Numeral} (written : numeral.IsWritten) {rest : List Char}
    (stops : Stops rest) (previous : Option Token) :
    read previous (numeral.chars ++ rest) =
      .ofNumber (String.ofList numeral.chars) (numeral.toFloat false) ::
        read (some (.ofNumber (String.ofList numeral.chars) (numeral.toFloat false))) rest := by
  obtain ⟨first, others, shape, visible, noSign⟩ := numeral.chars_head_visible written
  have found := Numeral.scan_chars_append written stops
  rw [shape] at found ⊢
  rw [List.cons_append] at found ⊢
  rw [read_cons]
  simp [next, visible, noSign, unsigned, found, tokens, SignedNumeral.chars, SignedNumeral.toFloat,
    shape]

/-- A sign in front of a numeral belongs to it where no operand precedes it. -/
theorem read_signed {numeral : Numeral} (written : numeral.IsWritten) (sign : Sign)
    {rest : List Char} (stops : Stops rest) {previous : Option Token}
    (unary : Token.isUnaryAfter previous = true) :
    read previous (sign.char :: numeral.chars ++ rest) =
      .ofNumber (String.ofList (sign.char :: numeral.chars)) (numeral.toFloat (sign = .minus)) ::
        read (some (.ofNumber (String.ofList (sign.char :: numeral.chars))
          (numeral.toFloat (sign = .minus)))) rest := by
  have found := Numeral.scan_chars_append written stops
  have visible : isBlank sign.char = false := by
    cases sign <;> decide
  rw [List.cons_append, read_cons]
  simp [next, visible, Sign.ofChar?_char, unary, found, tokens, SignedNumeral.chars,
    SignedNumeral.toFloat]

/-- A minus in front of anything but a numeral is a multiplication where no operand precedes it. -/
theorem read_negation {previous : Option Token} (unary : Token.isUnaryAfter previous = true)
    {rest : List Char} (noNumeral : Numeral.scan rest = none) :
    read previous ('-' :: rest) =
      minusOne :: .operator "*" :: read (some (.operator "*")) rest := by
  have visible : isBlank '-' = false := by
    decide
  have minus : Sign.ofChar? '-' = some .minus := rfl
  rw [read_cons]
  simp [next, visible, minus, unary, noNumeral, tokens, Token.operator]

theorem read_word {word : String} (isWord : Text.isWord word = true) {rest : List Char}
    (stops : Stops rest) (previous : Option Token) :
    read previous (word.toList ++ rest) = .ofWord word :: read (some (.ofWord word)) rest := by
  obtain ⟨first, part, shape, start, parts⟩ := isWord_iff.1 isWord
  have whole : String.ofList (first :: part) = word := by
    rw [← shape, String.ofList_toList]
  have noNumeral := scan_word isWord rest
  rw [shape, List.cons_append] at noNumeral
  have noSign := Sign.ofChar?_of_isWordStart start
  have all := @List.takeWhile_append_of_pos _ _ _ rest parts
  have none := @List.dropWhile_append_of_pos _ _ _ rest parts
  have outside : rest.takeWhile isWordPart = [] ∧ rest.dropWhile isWordPart = rest := by
    simpa using takeWhile_append_of_stops []
      fun c isHead => not_isWordPart_of_isStop (stops c isHead)
  rw [outside.1, List.append_nil] at all
  rw [outside.2] at none
  rw [shape, List.cons_append, read_cons]
  simp [next, not_isBlank_of_isWordStart start, noSign, unsigned, noNumeral, start, all, none,
    tokens, whole]

theorem read_stop {c : Char} (stop : isStop c = true) (visible : isBlank c = false)
    (previous : Option Token) (rest : List Char) :
    read previous (c :: rest) =
      (symbol c).tokens previous ++ read (some (symbolToken c)) rest := by
  have noNumeral := scan_eq_none (not_isDigit_of_isStop stop) (ne_point_of_isStop stop) rest
  have noWord : isWordStart c = false := by
    have noPart := not_isWordPart_of_isStop stop
    simp_all [isWordPart]
  rw [read_cons]
  have last : ((symbol c).tokens previous).getLast? = some (symbolToken c) := by
    simp only [tokens]
    split
    · rfl
    · rfl
  simp [next, visible, sign_of_isStop stop, unsigned, noNumeral, noWord, last]

theorem read_operator_sign (sign : Sign) {previous : Option Token}
    (binary : Token.isUnaryAfter previous = false) (rest : List Char) :
    read previous (sign.char :: rest) =
      .operator (String.singleton sign.char) ::
        read (some (.operator (String.singleton sign.char))) rest := by
  have visible : isBlank sign.char = false := by
    cases sign <;> decide
  have noNumeral : Numeral.scan (sign.char :: rest) = none := by
    cases sign
    · exact scan_eq_none (by decide) (by decide) rest
    · exact scan_eq_none (by decide) (by decide) rest
  have noWord : isWordStart sign.char = false := by
    cases sign <;> decide
  have shape : (symbol sign.char).tokens previous =
      [.operator (String.singleton sign.char)] := by
    cases sign <;> rfl
  rw [read_cons]
  simp [next, visible, Sign.ofChar?_char, binary, unsigned, noNumeral, noWord, shape]

theorem read_leftParen (previous : Option Token) (rest : List Char) :
    read previous ('(' :: rest) = .leftParen :: read (some .leftParen) rest :=
  read_stop (by decide) (by decide) previous rest

theorem read_rightParen {previous : Option Token}
    (filled : previous.any (·.kind = .leftParen) = false) (rest : List Char) :
    read previous (')' :: rest) = .rightParen :: read (some .rightParen) rest := by
  rw [read_stop (by decide) (by decide)]
  simp [tokens, filled]
  exact ⟨rfl, rfl⟩

def operatorStops : List Char := ['*', '/', '^', '!', '=']

theorem read_operator {c : Char} (isOperator : c ∈ operatorStops) (previous : Option Token)
    (rest : List Char) :
    read previous (c :: rest) = .operator (String.singleton c) ::
      read (some (.operator (String.singleton c))) rest := by
  have facts : isStop c = true ∧ isBlank c = false ∧ c ≠ ')' ∧
      symbolToken c = .operator (String.singleton c) := by
    simp only [operatorStops, List.mem_cons, List.not_mem_nil, or_false] at isOperator
    rcases isOperator with rfl | rfl | rfl | rfl | rfl <;> decide
  obtain ⟨stop, visible, noParen, shape⟩ := facts
  rw [read_stop stop visible]
  simp [tokens, noParen, shape]

end Piece

end Reckoner
