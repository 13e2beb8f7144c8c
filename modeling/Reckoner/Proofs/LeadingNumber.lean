import Reckoner.Proofs.Binary64.OfDecimal
import Reckoner.Proofs.Decimal.Canonical
import Reckoner.Proofs.Longest

/-!
# The number that a text begins with

In front of a text a number is blanks, a sign and a numeral, as long as they go. The text is
answered with the double that the number rounds to, or with zero where it begins with no number. The
one exception is an information separator among the blanks. It is blank to the search for the
number, and no white space to the reader of doubles that the number is handed to: so the number is
refused.

The tokens of a text come from another search, which leaves blanks out and decides on signs by what
precedes them. Still the text of each numeral among them is answered with the number of the token.
-/

set_option autoImplicit false

namespace Reckoner

open Text Binary64

/-! ## Signed numerals -/

theorem Numeral.value_nonneg (numeral : Numeral) : 0 ≤ numeral.value := by
  unfold value
  positivity

namespace SignedNumeral

/-- A double is what a signed numeral rounds to: the nearest one, with the sign that is written, and
infinite from the overflow bound on. -/
structure RoundsTo (signed : SignedNumeral) (double : Float) : Prop where
  nearest : IsNearest signed.value double
  sign : isNegative double = decide (signed.sign = some .minus)
  isInf_iff : double.isInf = true ↔ overflowBound ≤ |signed.value|

variable {signed : SignedNumeral}

theorem toFloat_eq_nearest (signed : SignedNumeral) :
    signed.toFloat = Binary64.nearest (signed.sign = some .minus) signed.numeral.value :=
  ofDecimal_eq _ _ _

theorem roundsTo_toFloat (signed : SignedNumeral) : signed.RoundsTo signed.toFloat := by
  have nonneg := signed.numeral.value_nonneg
  rw [toFloat_eq_nearest]
  refine ⟨isNearest_nearest _ nonneg, isNegative_nearest _ _, ?_⟩
  rw [value, abs_withSign, abs_of_nonneg nonneg]
  exact isInf_nearest_iff _ nonneg

/-- What is found is written as a numeral is, with what is left behind it. -/
theorem of_scan {characters rest : List Char} (found : scan characters = some (signed, rest)) :
    signed.numeral.IsWritten ∧ signed.chars ++ rest = characters := by
  have whole := Sign.scan_chars characters
  simp only [scan, Option.map_eq_some_iff] at found
  generalize Sign.scan characters = split at found whole
  obtain ⟨⟨numeral, after⟩, scanned, same⟩ := found
  obtain ⟨rfl, rfl⟩ := Prod.mk.inj same
  refine ⟨Numeral.isWritten_of_scan scanned, ?_⟩
  rw [chars, List.append_assoc, Numeral.scan_chars scanned, whole]

/-- A text that begins with a signed numeral is found to begin with one that is at least as long. -/
theorem scan_longest (written : signed.numeral.IsWritten) (rest : List Char) :
    ∃ found after, scan (signed.chars ++ rest) = some (found, after) ∧
      signed.chars.length ≤ found.chars.length := by
  obtain ⟨numeral, after, scanned, least⟩ := Numeral.scan_longest written rest
  refine ⟨⟨signed.sign, numeral⟩, after, ?_, ?_⟩
  · simp only [scan, scan_sign_append written rest, scanned, Option.map_some]
  · simp only [chars, List.length_append]
    omega

theorem scan_chars_append (written : signed.numeral.IsWritten) {rest : List Char}
    (stops : Stops rest) : scan (signed.chars ++ rest) = some (signed, rest) := by
  simp only [scan, scan_sign_append written rest, Numeral.scan_chars_append written stops,
    Option.map_some]

theorem chars_ne_nil (written : signed.numeral.IsWritten) : signed.chars ≠ [] := by
  obtain ⟨first, others, shape, -⟩ := signed.numeral.chars_head written
  simp [chars, shape]

end SignedNumeral

/-! ## Numbers in front of a text -/

/-- Blanks with a signed numeral behind them. -/
structure LeadingNumber where
  blanks : List Char
  signed : SignedNumeral
  areBlank : ∀ c ∈ blanks, isBlank c = true
  written : signed.numeral.IsWritten

namespace LeadingNumber

def chars (number : LeadingNumber) : List Char :=
  number.blanks ++ number.signed.chars

/-- The characters of a number that may stand in front of a text. -/
def IsChars (characters : List Char) : Prop :=
  ∃ number : LeadingNumber, number.chars = characters

/-- What a text is answered with if a number is the longest one in front of it. -/
inductive Answers (number : LeadingNumber) : Except RefusedNumeral Float → Prop
  | accepted {double : Float} (spaces : ∀ c ∈ number.blanks, isSeparator c = false)
      (rounds : number.signed.RoundsTo double)
      (reads : readFloat? (String.ofList number.chars) = some double) :
      number.Answers (.ok double)
  | refused {c : Char} (member : c ∈ number.blanks) (separator : isSeparator c = true)
      (unread : readFloat? (String.ofList number.chars) = none) :
      number.Answers (.error ⟨String.ofList number.chars⟩)

/-- The blanks end where the numeral begins. -/
theorem blanks_append (number : LeadingNumber) (rest : List Char) :
    (number.chars ++ rest).takeWhile isBlank = number.blanks ∧
      (number.chars ++ rest).dropWhile isBlank = number.signed.chars ++ rest := by
  obtain ⟨first, others, shape⟩ :=
    List.exists_cons_of_ne_nil (SignedNumeral.chars_ne_nil number.written)
  have visible : isBlank first = false :=
    SignedNumeral.not_isBlank_of_mem_chars number.written (shape ▸ List.mem_cons_self)
  rw [chars, List.append_assoc, List.takeWhile_append_of_pos number.areBlank,
    List.dropWhile_append_of_pos number.areBlank, shape]
  simp [visible]

/-- What is found behind all blanks is the longest number in front of a text. -/
theorem longest_of_scan {number : LeadingNumber} {rest : List Char}
    (found : SignedNumeral.scan (number.signed.chars ++ rest) = some (number.signed, rest)) :
    Longest IsChars number.chars rest := by
  refine ⟨⟨number, rfl⟩, ?_⟩
  rintro _ ⟨other, rfl⟩ ⟨after, same⟩
  obtain ⟨blanks, tail⟩ := number.blanks_append rest
  obtain ⟨otherBlanks, otherTail⟩ := other.blanks_append after
  obtain ⟨again, left, scanned, least⟩ := SignedNumeral.scan_longest other.written after
  -- the blanks of both end at the same place, and the scanner sees the same characters there
  rw [same, blanks] at otherBlanks
  rw [← otherTail, same, tail, found] at scanned
  obtain ⟨rfl, -⟩ := Prod.mk.inj (Option.some.inj scanned)
  simp only [chars, List.length_append, otherBlanks]
  omega

/-- Where nothing is found behind all blanks, no number is in front of the text. -/
theorem not_prefix_of_scan {characters : List Char}
    (nothing : SignedNumeral.scan (characters.dropWhile isBlank) = none) (number : LeadingNumber) :
    ¬ number.chars <+: characters := by
  rintro ⟨rest, rfl⟩
  obtain ⟨found, after, scanned, -⟩ := SignedNumeral.scan_longest number.written rest
  rw [(number.blanks_append rest).2, scanned] at nothing
  cases nothing

/-! ## What the reader of doubles makes of them -/

/-- The reader of doubles passes over white space. -/
theorem readFloat?_append {spaces : List Char} (areSpaces : ∀ c ∈ spaces, isSpace c = true)
    (characters : List Char) :
    readFloat? (String.ofList (spaces ++ characters)) = readFloat? (String.ofList characters) := by
  have same : trimBy isSpace (spaces ++ characters) = trimBy isSpace characters := by
    rw [trimBy, List.dropWhile_append_of_pos areSpaces, trimBy]
  simp only [readFloat?, String.toList_ofList, same]

theorem readFloat?_of_spaces {number : LeadingNumber}
    (spaces : ∀ c ∈ number.blanks, isSeparator c = false) :
    readFloat? (String.ofList number.chars) = some number.signed.toFloat := by
  rw [chars, readFloat?_append, readFloat?_chars number.written]
  intro c member
  have blank := number.areBlank c member
  rwa [isBlank, spaces c member, Bool.or_false] at blank

theorem not_isSpace_of_isSeparator {c : Char} (separator : isSeparator c = true) :
    isSpace c = false := by
  apply Bool.eq_false_iff.2
  intro space
  simp only [isSeparator, isSpace, Bool.or_eq_true, Bool.and_eq_true, decide_eq_true_eq,
    beq_iff_eq] at separator space
  omega

/-- A separator is nothing that a number begins with. -/
theorem separator_begins_nothing {c : Char} (separator : isSeparator c = true) :
    Sign.ofChar? c = none ∧ isDigit c = false ∧ c ≠ '.' ∧ c.toLower ∉ ['i', 'n'] := by
  simp only [isSeparator, Bool.and_eq_true, decide_eq_true_eq] at separator
  have four : c = Char.ofNat 0x1C ∨ c = Char.ofNat 0x1D ∨ c = Char.ofNat 0x1E ∨
      c = Char.ofNat 0x1F := by
    simp only [← Char.toNat_inj]
    change c.toNat = 0x1C ∨ c.toNat = 0x1D ∨ c.toNat = 0x1E ∨ c.toNat = 0x1F
    omega
  rcases four with rfl | rfl | rfl | rfl
  · decide
  · decide
  · decide
  · decide

/-- What begins with a separator is no number to the reader of doubles. -/
theorem readFloat?_eq_none {first : Char} {tail : List Char} (separator : isSeparator first = true)
    (trimmed : trimBy isSpace (first :: tail) = first :: tail) (plain : '_' ∉ first :: tail) :
    readFloat? (String.ofList (first :: tail)) = none := by
  obtain ⟨noSign, noDigit, noPoint, noLetter⟩ := separator_begins_nothing separator
  have noWord (letter : Char) (part : List Char) (isLetter : letter ∈ ['i', 'n']) :
      String.ofList ((first :: tail).map Char.toLower) ≠ String.ofList (letter :: part) := by
    intro same
    rw [List.map_cons] at same
    exact noLetter ((List.cons.inj (String.ofList_injective same)).1 ▸ isLetter)
  have noInf : _ ≠ "inf" := noWord 'i' ['n', 'f'] (by decide)
  have noInfinity : _ ≠ "infinity" := noWord 'i' ['n', 'f', 'i', 'n', 'i', 't', 'y'] (by decide)
  have noNan : _ ≠ "nan" := noWord 'n' ['a', 'n'] (by decide)
  have scanned : Sign.scan (first :: tail) = (none, first :: tail) := by
    simp [Sign.scan, noSign]
  simp only [readFloat?, String.toList_ofList, trimmed, ungroup?_of_not_mem plain,
    Option.bind_eq_bind, Option.bind_some, scanned, noInf, noInfinity, noNan, decide_false,
    Bool.or_self, Bool.false_eq_true, if_false, Piece.scan_eq_none noDigit noPoint]

/-- The first of the blanks that is no white space is a separator. -/
theorem exists_separator {number : LeadingNumber} {c : Char} (member : c ∈ number.blanks)
    (separator : isSeparator c = true) :
    ∃ spaces first others, number.blanks = spaces ++ first :: others ∧
      (∀ c ∈ spaces, isSpace c = true) ∧ isSeparator first = true := by
  have split := List.takeWhile_append_dropWhile (p := isSpace) (l := number.blanks)
  have some : number.blanks.dropWhile isSpace ≠ [] := by
    intro none
    have space := List.dropWhile_eq_nil_iff.1 none c member
    simp [not_isSpace_of_isSeparator separator] at space
  obtain ⟨first, others, shape⟩ := List.exists_cons_of_ne_nil some
  rw [shape] at split
  refine ⟨_, first, others, split.symm, List.all_eq_true.1 List.all_takeWhile, ?_⟩
  have noSpace : isSpace first = false := by
    have head := List.head?_dropWhile_not isSpace number.blanks
    simpa [shape] using head
  have blank := number.areBlank first (split ▸ by simp)
  rwa [isBlank, noSpace, Bool.false_or] at blank

/-- The reader of doubles passes over no separator. -/
theorem readFloat?_of_separator {number : LeadingNumber} {c : Char} (member : c ∈ number.blanks)
    (separator : isSeparator c = true) : readFloat? (String.ofList number.chars) = none := by
  obtain ⟨spaces, first, others, split, areSpaces, isFirst⟩ := exists_separator member separator
  have visible {c : Char} (inside : c ∈ number.signed.chars) : isSpace c = false := by
    have outside := SignedNumeral.not_isBlank_of_mem_chars number.written inside
    exact (Bool.or_eq_false_iff.1 outside).1
  rw [chars, split, List.append_assoc, readFloat?_append areSpaces, List.cons_append]
  -- nothing more is trimmed: the separator is in front, and a digit or a point at the end
  refine readFloat?_eq_none isFirst (trimBy_of_ends ?_ ?_) ?_
  · rintro c ⟨⟩
    exact not_isSpace_of_isSeparator isFirst
  · intro c last
    rw [Option.mem_def, ← List.cons_append, List.getLast?_append_of_ne_nil _
      (SignedNumeral.chars_ne_nil number.written)] at last
    exact visible (List.mem_of_getLast? last)
  · rw [← List.cons_append]
    intro underscore
    rcases List.mem_append.1 underscore with inside | digit
    · have blank := number.areBlank '_' (split ▸ List.mem_append_right spaces inside)
      exact absurd blank (by decide)
    · exact SignedNumeral.not_mem_chars_underscore number.written digit

theorem parseNumber_eq {number : LeadingNumber} {rest : List Char} {text : String}
    (whole : text.toList = number.chars ++ rest)
    (found : SignedNumeral.scan (number.signed.chars ++ rest) = some (number.signed, rest)) :
    parseNumber text =
      if number.blanks.any isSeparator then .error ⟨String.ofList number.chars⟩
      else .ok number.signed.toFloat := by
  obtain ⟨blanks, tail⟩ := number.blanks_append rest
  simp only [parseNumber, whole, blanks, tail, found]
  rfl

theorem answers {number : LeadingNumber} {rest : List Char} {text : String}
    (whole : text.toList = number.chars ++ rest)
    (found : SignedNumeral.scan (number.signed.chars ++ rest) = some (number.signed, rest)) :
    number.Answers (parseNumber text) := by
  rw [parseNumber_eq whole found]
  split
  · rename_i refused
    obtain ⟨c, member, separator⟩ := List.any_eq_true.1 refused
    exact .refused member separator (readFloat?_of_separator member separator)
  · rename_i accepted
    have spaces : ∀ c ∈ number.blanks, isSeparator c = false := by
      simpa using accepted
    exact .accepted spaces number.signed.roundsTo_toFloat (readFloat?_of_spaces spaces)

end LeadingNumber

theorem parseNumber_of_scan {text : String}
    (nothing : SignedNumeral.scan (text.toList.dropWhile isBlank) = none) :
    parseNumber text = .ok zero := by
  simp only [parseNumber, nothing]

/-- Every text is answered with what the longest number in front of it rounds to, or with zero where
there is no number. Only a number behind a separator is refused. -/
theorem parseNumber_reads_longest (text : String) :
    (parseNumber text = .ok zero ∧ ∀ number : LeadingNumber, ¬ number.chars <+: text.toList) ∨
      ∃ (number : LeadingNumber) (rest : List Char), text.toList = number.chars ++ rest ∧
        Longest LeadingNumber.IsChars number.chars rest ∧ number.Answers (parseNumber text) := by
  cases found : SignedNumeral.scan (text.toList.dropWhile isBlank) with
  | none =>
    left
    exact ⟨parseNumber_of_scan found, LeadingNumber.not_prefix_of_scan found⟩
  | some pair =>
    obtain ⟨signed, rest⟩ := pair
    right
    have split := List.takeWhile_append_dropWhile (p := isBlank) (l := text.toList)
    obtain ⟨written, tail⟩ := SignedNumeral.of_scan found
    have areBlank : ∀ c ∈ text.toList.takeWhile isBlank, isBlank c = true :=
      List.all_eq_true.1 List.all_takeWhile
    let number : LeadingNumber := ⟨text.toList.takeWhile isBlank, signed, areBlank, written⟩
    have whole : text.toList = number.chars ++ rest := by
      rw [LeadingNumber.chars, List.append_assoc, tail, split]
    rw [← tail] at found
    exact ⟨number, rest, whole, LeadingNumber.longest_of_scan found,
      LeadingNumber.answers whole found⟩

/-- A number with a separator in front of it, and nothing else in the text, is refused. -/
theorem parseNumber_refuses_separator :
    ∃ number : LeadingNumber, "\x1c5".toList = number.chars ∧
      Longest LeadingNumber.IsChars number.chars [] ∧ number.signed.RoundsTo (ofInt 5) ∧
      parseNumber "\x1c5" = .error ⟨"\x1c5"⟩ := by
  let signed : SignedNumeral := ⟨none, ⟨['5'], none, none⟩⟩
  have written : signed.numeral.IsWritten :=
    ⟨List.forall_mem_singleton.2 rfl, nofun, .inl (by decide), nofun⟩
  have isFive : signed.toFloat = ofInt 5 := by decide +kernel
  let number : LeadingNumber := ⟨['\x1c'], signed, List.forall_mem_singleton.2 rfl, written⟩
  refine ⟨number, rfl, LeadingNumber.longest_of_scan ?_, ?_, ?_⟩
  · exact SignedNumeral.scan_chars_append written stops_nil
  · exact isFive ▸ signed.roundsTo_toFloat
  · decide +kernel

/-! ## The number of a token and the number of its text -/

theorem parseNumber_chars {signed : SignedNumeral} (written : signed.numeral.IsWritten) :
    parseNumber (String.ofList signed.chars) = .ok signed.toFloat := by
  have found := SignedNumeral.scan_chars_append written stops_nil
  exact @LeadingNumber.parseNumber_eq ⟨[], signed, nofun, written⟩ [] _
    (by simp [LeadingNumber.chars]) found

namespace Token

/-- The two readers of numbers agree on a token: its text is answered with its number, and with zero
if nothing is known of it. So it makes no difference to what it stands for if it has no number. -/
structure ReadersAgree (token : Token) : Prop where
  number : token.kind = .number →
    ∃ number, token.number? = some number ∧ parseNumber token.text = .ok number
  unknown : token.kind = .unknown → parseNumber token.text = .ok zero
  resolve : ∀ table, Machine.resolve table (some ⟨token.text, token.kind, none⟩) =
    Machine.resolve table (some token)

theorem readersAgree_ofNumber {text : String} {number : Float}
    (reads : parseNumber text = .ok number) : (ofNumber text number).ReadersAgree where
  number _ := ⟨number, rfl, reads⟩
  unknown isUnknown := by cases isUnknown
  resolve _ := reads

theorem readersAgree_of_kind {token : Token} (noNumber : token.number? = none)
    (other : token.kind ≠ .number)
    (unknown : token.kind = .unknown → parseNumber token.text = .ok zero) :
    token.ReadersAgree where
  number isNumber := absurd isNumber other
  unknown := unknown
  resolve _ := by
    obtain ⟨text, kind, number?⟩ := token
    obtain rfl : number? = none := noNumber
    rfl

theorem readersAgree_ofWord (word : String) : (ofWord word).ReadersAgree := by
  have noNumber : (ofWord word).number? = none := by
    simp only [ofWord]
    split_ifs <;> rfl
  have kind : (ofWord word).kind ∈ [TokenKind.function, .unit, .name] := by
    rcases ofWord_cases word with ⟨isFunction, -⟩ | ⟨unit, isUnit⟩ | isName
    · simp [isFunction]
    · simp [isUnit]
    · simp [isName]
  refine readersAgree_of_kind noNumber (fun isNumber => ?_) fun isUnknown => ?_
  · simp [isNumber] at kind
  · simp [isUnknown] at kind

theorem readersAgree_symbolToken {c : Char} (visible : isBlank c = false)
    (noDigit : isDigit c = false) : (Piece.symbolToken c).ReadersAgree := by
  have noNumber : (Piece.symbolToken c).number? = none := by
    simp only [Piece.symbolToken]
    split_ifs <;> rfl
  refine readersAgree_of_kind noNumber (fun isNumber => ?_) fun _ => ?_
  · have kind := kind_symbolToken c
    simp [isNumber] at kind
  · apply parseNumber_of_scan
    simp [text_symbolToken, visible, SignedNumeral.scan_singleton noDigit]

end Token

/-- For every token of a text the number that it was read with is the number that its text is
answered with. -/
theorem readers_agree (text : String) : ∀ token ∈ tokenize text, token.ReadersAgree := by
  rw [Piece.tokenize_eq_read]
  refine Piece.forall_mem_read Token.ReadersAgree ⟨?_, ?_⟩ ?_ ?_ ?_ ?_
  · exact Token.readersAgree_ofNumber (by decide +kernel)
  · exact Token.readersAgree_of_kind rfl (by decide) (fun isUnknown => by cases isUnknown)
  · exact Token.readersAgree_ofNumber (by decide +kernel)
  · exact fun signed written => Token.readersAgree_ofNumber (parseNumber_chars written)
  · exact fun word _ => Token.readersAgree_ofWord word
  · exact fun c _ visible noDigit _ => Token.readersAgree_symbolToken visible noDigit

/-- Numbers that no numeral was read for, one that overflows in digits of another script, and a
character that means nothing. -/
theorem readers_agree_of_every_kind :
    tokenize "-x()٣e999$" = [Piece.minusOne, .operator "*", .ofWord "x", .leftParen,
        Piece.implicitZero, .rightParen, .ofNumber "٣e999" (infinity false),
        ⟨"$", .unknown, none⟩] ∧
      parseNumber "-1" = .ok (-one) ∧ parseNumber "0" = .ok zero ∧
      parseNumber "٣e999" = .ok (infinity false) ∧ parseNumber "$" = .ok zero := by
  have whole : tokenize "-x()٣e999$" = [Piece.minusOne, .operator "*", .ofWord "x", .leftParen,
      Piece.implicitZero, .rightParen, .ofNumber "٣e999" (infinity false),
      ⟨"$", .unknown, none⟩] := by decide +kernel
  have agree := readers_agree "-x()٣e999$"
  simp only [whole, List.forall_mem_cons] at agree
  obtain ⟨negation, -, -, -, implicit, -, overflow, nothing, -⟩ := agree
  obtain ⟨_, ⟨⟩, minusOne⟩ := negation.number rfl
  obtain ⟨_, ⟨⟩, zero⟩ := implicit.number rfl
  obtain ⟨_, ⟨⟩, infinite⟩ := overflow.number rfl
  exact ⟨whole, minusOne, zero, infinite, nothing.unknown rfl⟩

end Reckoner
