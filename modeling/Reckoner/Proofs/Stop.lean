import Reckoner.Token.Lexing

/-!
# Where a piece of text stops

Digits, a point, a sign and the parts of a word may carry on a numeral, an exponent or a word. Any
other character stops whatever stands before it, so that what follows the character has no part in
how the text before it is read. Nothing here asserts that a stop is a token of its own: blanks,
operators and parentheses are all stops, and so are unknown characters.
-/

set_option autoImplicit false

namespace Reckoner

namespace Text

theorem isDigit_iff (c : Char) :
    isDigit c = true ↔ ∃ start ∈ zeroDigits, start ≤ c.toNat ∧ c.toNat < start + 10 := by
  simp [isDigit, digitValue?]

/-- The digits of ASCII are the only decimal digits below U+0660. -/
theorem isAsciiDigit_of_isDigit {c : Char} (digit : isDigit c = true) (small : c.toNat < 0x660) :
    48 ≤ c.toNat ∧ c.toNat ≤ 57 := by
  obtain ⟨start, inTable, least, most⟩ := (isDigit_iff c).1 digit
  have starts : ∀ start ∈ zeroDigits, start = 48 ∨ 0x660 ≤ start := by decide
  rcases starts start inTable with rfl | large
  · omega
  · omega

/-- No blank is a digit: between the scripts whose digits surround them the table has a gap. -/
theorem not_isDigit_of_isBlank {c : Char} (blank : isBlank c = true) : isDigit c = false := by
  apply Bool.eq_false_iff.2
  intro digit
  obtain ⟨start, inTable, least, most⟩ := (isDigit_iff c).1 digit
  have gaps : ∀ start ∈ zeroDigits, (start = 48 ∨ 0x660 ≤ start) ∧
      (start + 10 ≤ 0x1680 ∨ 0x1681 ≤ start) ∧ (start + 10 ≤ 0x2000 ∨ 0x3001 ≤ start) := by
    decide
  have gap := gaps start inTable
  simp only [isBlank, isSpace, isSeparator, Bool.or_eq_true, Bool.and_eq_true, decide_eq_true_eq,
    beq_iff_eq] at blank
  omega

end Text

open Text

theorem isWordStart_iff (c : Char) :
    isWordStart c = true ↔ (65 ≤ c.toNat ∧ c.toNat ≤ 90) ∨ (97 ≤ c.toNat ∧ c.toNat ≤ 122) ∨
      c.toNat = 95 := by
  have underscore : c = '_' ↔ c.toNat = 95 :=
    ⟨fun same => same ▸ rfl, fun same => Char.toNat_inj.1 same⟩
  simp only [isWordStart, Bool.or_eq_true, Bool.and_eq_true, decide_eq_true_eq, Char.le_def,
    UInt32.le_iff_toNat_le, underscore, or_assoc]
  rfl

theorem not_isDigit_of_isWordStart {c : Char} (start : isWordStart c = true) :
    isDigit c = false := by
  apply Bool.eq_false_iff.2
  intro digit
  rw [isWordStart_iff] at start
  have ascii := isAsciiDigit_of_isDigit digit (by omega)
  omega

theorem not_isBlank_of_isWordStart {c : Char} (start : isWordStart c = true) :
    isBlank c = false := by
  apply Bool.eq_false_iff.2
  intro blank
  rw [isWordStart_iff] at start
  simp only [isBlank, isSpace, isSeparator, Bool.or_eq_true, Bool.and_eq_true, decide_eq_true_eq,
    beq_iff_eq] at blank
  omega

/-- Characters that end the numeral or the word in front of them. -/
def isStop (c : Char) : Bool :=
  !isDigit c && !isWordPart c && c ≠ '.' && c ≠ '+' && c ≠ '-'

/-- A rest of a text that is empty or begins with a stop. -/
def Stops (rest : List Char) : Prop :=
  ∀ c ∈ rest.head?, isStop c = true

theorem stops_nil : Stops [] := by
  simp [Stops]

theorem stops_cons {c : Char} (stop : isStop c = true) (rest : List Char) : Stops (c :: rest) := by
  simpa [Stops] using stop

theorem Stops.head {c : Char} {rest : List Char} (stops : Stops (c :: rest)) :
    isStop c = true :=
  stops c rfl

section

variable {c : Char} (stop : isStop c = true)

include stop

theorem not_isDigit_of_isStop : isDigit c = false := by
  simp_all [isStop]

theorem not_isWordPart_of_isStop : isWordPart c = false := by
  simp_all [isStop]

theorem ne_point_of_isStop : c ≠ '.' := by
  simp_all [isStop]

theorem sign_of_isStop : Sign.ofChar? c = none := by
  simp_all [isStop, Sign.ofChar?]

theorem ne_mark_of_isStop : c ≠ 'e' ∧ c ≠ 'E' := by
  have noPart := not_isWordPart_of_isStop stop
  constructor
  · rintro rfl
    exact absurd noPart (by decide)
  · rintro rfl
    exact absurd noPart (by decide)

end

/-- A class of items that the first of the rest does not belong to is left there at the latest. -/
theorem takeWhile_append_of_stops {Item : Type} {member : Item → Bool} {rest : List Item}
    (items : List Item) (outside : ∀ item ∈ rest.head?, member item = false) :
    (items ++ rest).takeWhile member = items.takeWhile member ∧
      (items ++ rest).dropWhile member = items.dropWhile member ++ rest := by
  induction items with
  | nil =>
    cases rest with
    | nil => simp
    | cons item rest => simp [outside item rfl]
  | cons item items inner =>
    by_cases inside : member item = true
    · simp [inside, inner]
    · simp [inside]

namespace Sign

theorem scan_append {rest : List Char} (stops : Stops rest) (characters : List Char) :
    scan (characters ++ rest) = ((scan characters).1, (scan characters).2 ++ rest) := by
  cases characters with
  | nil =>
    cases rest with
    | nil => rfl
    | cons c rest => simp [scan, sign_of_isStop stops.head]
  | cons c characters =>
    cases found : ofChar? c with
    | some sign => simp [scan, found]
    | none => simp [scan, found]

end Sign

namespace Exponent

theorem scan_append {rest : List Char} (stops : Stops rest) (characters : List Char) :
    scan (characters ++ rest) = ((scan characters).1, (scan characters).2 ++ rest) := by
  cases characters with
  | nil =>
    cases rest with
    | nil => rfl
    | cons c rest =>
      have noMark := ne_mark_of_isStop stops.head
      simp [scan, noMark.1, noMark.2]
  | cons mark tail =>
    have digits := takeWhile_append_of_stops (Sign.scan tail).2 fun c isHead =>
      not_isDigit_of_isStop (stops c isHead)
    simp only [scan, List.cons_append, Sign.scan_append stops, digits.1, digits.2]
    split
    · rfl
    · rfl

end Exponent

namespace Numeral

/-- A stop after some characters has no part in the numeral at their front. -/
theorem scan_append {rest : List Char} (stops : Stops rest) (characters : List Char) :
    scan (characters ++ rest) =
      (scan characters).map fun found => (found.1, found.2 ++ rest) := by
  have outside : ∀ c ∈ rest.head?, isDigit c = false := fun c isHead =>
    not_isDigit_of_isStop (stops c isHead)
  have whole := takeWhile_append_of_stops characters outside
  unfold scan
  rw [whole.1, whole.2]
  generalize characters.takeWhile isDigit = digits
  cases characters.dropWhile isDigit with
  | nil =>
    cases rest with
    | nil =>
      by_cases empty : digits.isEmpty = true
      · simp [empty]
      · simp [empty]
    | cons c rest =>
      have noPoint := ne_point_of_isStop stops.head
      have exponent := Exponent.scan_append stops []
      by_cases empty : digits.isEmpty = true
      · simp [noPoint, empty]
      · simp_all
  | cons c tail =>
    by_cases point : c = '.'
    · subst point
      have fraction := takeWhile_append_of_stops tail outside
      simp only [List.cons_append, fraction.1, fraction.2, Exponent.scan_append stops]
      split
      · rfl
      · rfl
    · have exponent := Exponent.scan_append stops (c :: tail)
      by_cases empty : digits.isEmpty = true
      · simp [point, empty]
      · simp_all

end Numeral

end Reckoner
