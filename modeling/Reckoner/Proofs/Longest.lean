import Reckoner.Proofs.Numeral

/-!
# Longest numerals and identifiers

A text may begin with several numerals, each one going on where the one before it ends: `1`, `1.`,
`1.5`, and `1.5e3` all stand in front of the same text. The scanner takes the longest of them,
also where an exponent is begun and not completed, and finds none only where there is none. An
identifier is taken in the same way. What is longest is determined by the text alone.
-/

set_option autoImplicit false

namespace Reckoner

open Text

/-- Characters of a kind in front of a rest, where no longer ones of the kind begin the text. -/
structure Longest (Kind : List Char → Prop) (front rest : List Char) : Prop where
  kind : Kind front
  most : ∀ other, Kind other → other <+: front ++ rest → other.length ≤ front.length

theorem Longest.unique {Kind : List Char → Prop} {front rest other after : List Char}
    (first : Longest Kind front rest) (second : Longest Kind other after)
    (same : front ++ rest = other ++ after) : front = other ∧ rest = after := by
  have noLonger := first.most other second.kind (same ▸ List.prefix_append other after)
  have noShorter := second.most front first.kind (same ▸ List.prefix_append front rest)
  exact List.append_inj same (Nat.le_antisymm noShorter noLonger)

/-! ## Numerals -/

/-- The characters of a written numeral. -/
def IsNumeral (characters : List Char) : Prop :=
  ∃ numeral : Numeral, numeral.IsWritten ∧ numeral.chars = characters

namespace Exponent

theorem scan_longest {exponent : Exponent} (written : exponent.IsWritten) (rest : List Char) :
    ∃ found ∈ (scan (exponent.chars ++ rest)).1, exponent.chars.length ≤ found.chars.length := by
  have signed := sign_append written rest
  obtain ⟨mark, sign, digits⟩ := exponent
  obtain ⟨isMark, nonempty, areDigits⟩ := written
  have taken := @List.takeWhile_append_of_pos _ _ _ rest areDigits
  have marked : (decide (mark = 'e') || decide (mark = 'E')) = true := by
    simpa using isMark
  refine ⟨⟨mark, sign, digits ++ rest.takeWhile isDigit⟩, ?_, ?_⟩
  · simp [chars, scan, signed, taken, marked, nonempty]
  · simp [chars]

/-- Of digits and an optional exponent behind them no less is found than stands there. -/
theorem le_of_digits {digits text rest : List Char} {exponent : Option Exponent}
    (areDigits : ∀ c ∈ digits, isDigit c = true)
    (written : ∀ found ∈ exponent, found.IsWritten)
    (front : text = digits ++ ((exponent.map Exponent.chars).getD [] ++ rest)) :
    digits <+: text.takeWhile isDigit ∧
      digits.length + ((exponent.map Exponent.chars).getD []).length ≤
        (text.takeWhile isDigit).length +
          (((scan (text.dropWhile isDigit)).1.map Exponent.chars).getD []).length := by
  have taken := @List.takeWhile_append_of_pos _ isDigit _
    ((exponent.map Exponent.chars).getD [] ++ rest) areDigits
  rw [← front] at taken
  have isFront : digits <+: text.takeWhile isDigit := taken ▸ List.prefix_append _ _
  refine ⟨isFront, ?_⟩
  cases exponent with
  | none =>
    have most := isFront.length_le
    simp only [Option.map_none, Option.getD_none, List.length_nil]
    omega
  | some exponent =>
    have isWritten := written exponent rfl
    obtain ⟨found, isFound, least⟩ := scan_longest isWritten rest
    have split := @digits_append digits (exponent.chars ++ rest) areDigits (by
      intro c isHead
      obtain rfl := Option.some.inj isHead
      exact not_isDigit_mark isWritten)
    simp only [front, Option.map_some, Option.getD_some, split.1, split.2, Option.mem_def.1 isFound]
    omega

end Exponent

namespace Numeral

/-- A text that begins with a numeral is found to begin with one that is at least as long. -/
theorem scan_longest {numeral : Numeral} (written : numeral.IsWritten) (rest : List Char) :
    ∃ found after, scan (numeral.chars ++ rest) = some (found, after) ∧
      numeral.chars.length ≤ found.chars.length := by
  obtain ⟨whole, fraction, exponent⟩ := numeral
  obtain ⟨wholeDigits, fractionDigits, nonempty, writtenExponent⟩ := written
  cases fraction with
  | some places =>
    generalize front : places ++ ((exponent.map Exponent.chars).getD [] ++ rest) = tail
    obtain ⟨isFront, least⟩ := @Exponent.le_of_digits places tail rest exponent fractionDigits
      writtenExponent front.symm
    have split := @digits_append whole ('.' :: tail) wholeDigits (by
      intro c isHead
      obtain rfl := Option.some.inj isHead
      decide)
    have someDigit : (whole.isEmpty && (tail.takeWhile isDigit).isEmpty) = false := by
      rcases nonempty with nonempty | nonempty
      · simp [nonempty]
      · simp [isFront.ne_nil nonempty]
    refine ⟨⟨whole, some (tail.takeWhile isDigit), (Exponent.scan (tail.dropWhile isDigit)).1⟩,
      (Exponent.scan (tail.dropWhile isDigit)).2, ?_, ?_⟩
    · simp [scan, chars, front, split.1, split.2, someDigit]
    · simp only [chars, Option.map_some, Option.getD_some, List.length_append, List.length_cons]
      omega
  | none =>
    generalize front : whole ++ ((exponent.map Exponent.chars).getD [] ++ rest) = text
    obtain ⟨isFront, least⟩ := @Exponent.le_of_digits whole text rest exponent wholeDigits
      writtenExponent front.symm
    have someDigit : (text.takeWhile isDigit).isEmpty = false := by
      have nonempty : whole ≠ [] := by
        simpa [Numeral.fractionDigits] using nonempty
      simp [isFront.ne_nil nonempty]
    have shape : Numeral.chars ⟨whole, none, exponent⟩ ++ rest = text := by
      simp [chars, ← front]
    rw [shape]
    unfold scan
    simp only [someDigit]
    split
    · rename_i tail point
      -- no exponent begins with a point, so there are only digits in front of it
      have noExponent : Exponent.scan ('.' :: tail) = (none, '.' :: tail) := by
        simp [Exponent.scan]
      rw [point, noExponent] at least
      refine ⟨_, _, rfl, ?_⟩
      simp only [chars, Option.map_none, Option.getD_none, Option.map_some, Option.getD_some,
        List.length_append, List.length_nil, List.length_cons] at least ⊢
      omega
    · refine ⟨_, _, rfl, ?_⟩
      simpa [chars] using least

/-- What the scanner takes is longest. -/
theorem longest_of_scan {characters rest : List Char} {found : Numeral}
    (isFound : scan characters = some (found, rest)) : Longest IsNumeral found.chars rest := by
  refine ⟨⟨found, isWritten_of_scan isFound, rfl⟩, ?_⟩
  intro other isNumeral isFront
  obtain ⟨numeral, written, rfl⟩ := isNumeral
  obtain ⟨after, same⟩ := isFront
  obtain ⟨again, left, scanned, least⟩ := scan_longest written after
  rw [same, scan_chars isFound, isFound] at scanned
  obtain ⟨rfl, -⟩ := Prod.mk.inj (Option.some.inj scanned)
  exact least

/-- The scanner takes what is longest. -/
theorem scan_of_longest {front rest : List Char} (longest : Longest IsNumeral front rest) :
    ∃ found, found.IsWritten ∧ found.chars = front ∧ scan (front ++ rest) = some (found, rest) := by
  obtain ⟨numeral, written, rfl⟩ := longest.kind
  obtain ⟨found, after, scanned, -⟩ := scan_longest written rest
  obtain ⟨same, rfl⟩ := (longest_of_scan scanned).unique longest (scan_chars scanned)
  exact ⟨found, isWritten_of_scan scanned, same, scanned⟩

theorem scan_eq_none_iff {characters : List Char} :
    scan characters = none ↔ ∀ front, IsNumeral front → ¬ front <+: characters := by
  constructor
  · intro nothing front isNumeral isFront
    obtain ⟨numeral, written, rfl⟩ := isNumeral
    obtain ⟨rest, rfl⟩ := isFront
    obtain ⟨found, after, scanned, -⟩ := scan_longest written rest
    rw [nothing] at scanned
    cases scanned
  · intro absent
    cases scanned : scan characters with
    | none => rfl
    | some pair =>
      obtain ⟨found, rest⟩ := pair
      have isNumeral : IsNumeral found.chars := ⟨found, isWritten_of_scan scanned, rfl⟩
      exact absurd ⟨rest, scan_chars scanned⟩ (absent found.chars isNumeral)

end Numeral

/-! ## Identifiers -/

/-- A letter or an underscore with letters, underscores and digits behind it, all of ASCII. -/
def IsIdentifier (characters : List Char) : Prop :=
  ∃ first part, characters = first :: part ∧ isWordStart first = true ∧
    ∀ c ∈ part, isWordPart c = true

theorem longest_identifier {first : Char} (start : isWordStart first = true) (rest : List Char) :
    Longest IsIdentifier (first :: rest.takeWhile isWordPart) (rest.dropWhile isWordPart) := by
  refine ⟨⟨first, _, rfl, start, List.all_eq_true.1 List.all_takeWhile⟩, ?_⟩
  intro other isIdentifier isFront
  obtain ⟨head, part, rfl, -, areParts⟩ := isIdentifier
  rw [List.cons_append, List.takeWhile_append_dropWhile] at isFront
  obtain ⟨after, same⟩ := (List.cons_prefix_cons.1 isFront).2
  have taken := @List.takeWhile_append_of_pos _ _ _ after areParts
  rw [same] at taken
  simp [taken]

theorem identifier_of_longest {front rest : List Char} (longest : Longest IsIdentifier front rest) :
    ∃ first part, front = first :: part ∧ isWordStart first = true ∧
      (part ++ rest).takeWhile isWordPart = part ∧ (part ++ rest).dropWhile isWordPart = rest := by
  obtain ⟨first, part, rfl, start, -⟩ := longest.kind
  have taken := longest_identifier start (part ++ rest)
  obtain ⟨same, left⟩ := taken.unique longest (by
    rw [List.cons_append, List.takeWhile_append_dropWhile, List.cons_append])
  exact ⟨first, part, rfl, start, List.tail_eq_of_cons_eq same, left⟩

end Reckoner
