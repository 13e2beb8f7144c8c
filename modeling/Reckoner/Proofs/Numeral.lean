import Reckoner.Proofs.Stop

/-!
# Written numerals

The grammar of numerals, said without the scanner: digits with an optional point and fraction, or a
point and digits, and an optional complete exponent. The scanner finds exactly these: what it takes
is written so, and it takes the whole of a numeral so written when a stop follows.
-/

set_option autoImplicit false

namespace Reckoner

open Text

/-- An exponent as it is written: a mark and at least one digit. -/
structure Exponent.IsWritten (exponent : Exponent) : Prop where
  mark : exponent.mark = 'e' ∨ exponent.mark = 'E'
  nonempty : exponent.digits ≠ []
  digits : ∀ c ∈ exponent.digits, isDigit c = true

/-- A numeral as it is written: at least one digit before or after the point. -/
structure Numeral.IsWritten (numeral : Numeral) : Prop where
  whole : ∀ c ∈ numeral.whole, isDigit c = true
  fraction : ∀ c ∈ numeral.fractionDigits, isDigit c = true
  nonempty : numeral.whole ≠ [] ∨ numeral.fractionDigits ≠ []
  exponent : ∀ exponent ∈ numeral.exponent, exponent.IsWritten

theorem Sign.ofChar?_char (sign : Sign) : Sign.ofChar? sign.char = some sign := by
  cases sign <;> rfl

theorem Sign.ofChar?_of_isDigit {c : Char} (digit : isDigit c = true) : Sign.ofChar? c = none := by
  have noPlus : c ≠ '+' := by
    rintro rfl
    exact absurd digit (by decide)
  have noMinus : c ≠ '-' := by
    rintro rfl
    exact absurd digit (by decide)
  simp [Sign.ofChar?, noPlus, noMinus]

theorem Sign.ofChar?_of_isWordStart {c : Char} (start : isWordStart c = true) :
    Sign.ofChar? c = none := by
  have noPlus : c ≠ '+' := by
    rintro rfl
    exact absurd start (by decide)
  have noMinus : c ≠ '-' := by
    rintro rfl
    exact absurd start (by decide)
  simp [Sign.ofChar?, noPlus, noMinus]

/-- The digits at the front of a text are all that is taken when no digit follows them. -/
theorem digits_append {digits rest : List Char} (areDigits : ∀ c ∈ digits, isDigit c = true)
    (outside : ∀ c ∈ rest.head?, isDigit c = false) :
    (digits ++ rest).takeWhile isDigit = digits ∧ (digits ++ rest).dropWhile isDigit = rest := by
  have split := takeWhile_append_of_stops digits outside
  have all := @List.takeWhile_append_of_pos _ _ _ [] areDigits
  have none := @List.dropWhile_append_of_pos _ _ _ [] areDigits
  simp only [List.append_nil, List.takeWhile_nil, List.dropWhile_nil] at all none
  rw [split.1, split.2, all, none]
  exact ⟨rfl, rfl⟩

namespace Exponent

theorem scan_of_stops {rest : List Char} (stops : Stops rest) : scan rest = (none, rest) := by
  simpa [scan] using scan_append stops []

theorem not_isDigit_mark {exponent : Exponent} (written : exponent.IsWritten) :
    isDigit exponent.mark = false := by
  rcases written.mark with mark | mark
  · rw [mark]
    decide
  · rw [mark]
    decide

theorem sign_append {exponent : Exponent} (written : exponent.IsWritten) (rest : List Char) :
    Sign.scan ((exponent.sign.map Sign.char).toList ++ (exponent.digits ++ rest)) =
      (exponent.sign, exponent.digits ++ rest) := by
  obtain ⟨mark, sign, digits⟩ := exponent
  cases sign with
  | some sign => simp [Sign.scan, Sign.ofChar?_char]
  | none =>
    obtain ⟨first, others, rfl⟩ := List.exists_cons_of_ne_nil written.nonempty
    simp [Sign.scan, Sign.ofChar?_of_isDigit (written.digits first List.mem_cons_self)]

theorem scan_chars_append {exponent : Exponent} (written : exponent.IsWritten) {rest : List Char}
    (stops : Stops rest) : scan (exponent.chars ++ rest) = (some exponent, rest) := by
  have signed := sign_append written rest
  obtain ⟨mark, sign, digits⟩ := exponent
  obtain ⟨isMark, nonempty, areDigits⟩ := written
  have split := digits_append areDigits fun c isHead => not_isDigit_of_isStop (stops c isHead)
  have marked : (decide (mark = 'e') || decide (mark = 'E')) = true := by
    simpa using isMark
  simp only [chars, List.append_assoc, List.cons_append, scan, signed, split.1, split.2, marked]
  simp [nonempty]

section

variable {exponent : Option Exponent} (written : ∀ found ∈ exponent, found.IsWritten)
  {rest : List Char} (stops : Stops rest)

include written stops

theorem scan_option_append :
    scan ((exponent.map Exponent.chars).getD [] ++ rest) = (exponent, rest) := by
  cases exponent with
  | none => exact scan_of_stops stops
  | some exponent => exact scan_chars_append (written exponent rfl) stops

/-- No digit follows the digits in front of an exponent. -/
theorem option_outside :
    ∀ c ∈ ((exponent.map Exponent.chars).getD [] ++ rest).head?, isDigit c = false := by
  intro c isHead
  cases exponent with
  | none => exact not_isDigit_of_isStop (stops c isHead)
  | some exponent =>
    simp only [Option.map_some, Option.getD_some, chars, List.cons_append, List.head?_cons,
      Option.mem_some_iff] at isHead
    subst isHead
    exact not_isDigit_mark (written exponent rfl)

theorem option_no_point :
    ∀ c ∈ ((exponent.map Exponent.chars).getD [] ++ rest).head?, c ≠ '.' := by
  intro c isHead
  cases exponent with
  | none => exact ne_point_of_isStop (stops c isHead)
  | some exponent =>
    simp only [Option.map_some, Option.getD_some, chars, List.cons_append, List.head?_cons,
      Option.mem_some_iff] at isHead
    subst isHead
    rcases (written exponent rfl).mark with mark | mark
    · exact mark ▸ by decide
    · exact mark ▸ by decide

end

theorem isWritten_of_scan {characters : List Char} :
    ∀ exponent ∈ (scan characters).1, exponent.IsWritten := by
  intro exponent found
  cases characters with
  | nil => simp [scan] at found
  | cons mark tail =>
    simp only [scan] at found
    split at found
    · rename_i complete
      simp only [Bool.and_eq_true, Bool.or_eq_true, decide_eq_true_eq, Bool.not_eq_true',
        List.isEmpty_eq_false_iff] at complete
      obtain rfl := Option.mem_some.1 found
      exact ⟨complete.1, complete.2, List.all_eq_true.1 List.all_takeWhile⟩
    · simp at found

end Exponent

namespace Numeral

theorem scan_chars_append {numeral : Numeral} (written : numeral.IsWritten) {rest : List Char}
    (stops : Stops rest) : scan (numeral.chars ++ rest) = some (numeral, rest) := by
  obtain ⟨whole, fraction, power⟩ := numeral
  obtain ⟨wholeDigits, fractionDigits, nonempty, writtenPower⟩ := written
  have exponent := Exponent.scan_option_append writtenPower stops
  have outside := Exponent.option_outside writtenPower stops
  have noPoint := Exponent.option_no_point writtenPower stops
  cases fraction with
  | some places =>
    have split := @digits_append whole
      ('.' :: (places ++ ((power.map Exponent.chars).getD [] ++ rest))) wholeDigits (by
        simp only [List.head?_cons, Option.mem_some_iff]
        rintro c rfl
        decide)
    have placesSplit := digits_append fractionDigits outside
    simp only [Numeral.fractionDigits, Option.getD_some] at nonempty placesSplit
    have someDigit : (whole.isEmpty && places.isEmpty) = false := by
      rcases nonempty with nonempty | nonempty
      · simp [nonempty]
      · simp [nonempty]
    simp [scan, chars, split.1, split.2, placesSplit.1, placesSplit.2, exponent, someDigit]
  | none =>
    have split := digits_append wholeDigits outside
    have someDigit : whole ≠ [] := by
      simpa [Numeral.fractionDigits] using nonempty
    simp only [scan, chars, Option.map_none, Option.getD_none, List.append_nil, List.append_assoc,
      split.1, split.2]
    split
    · rename_i tail front
      exact absurd rfl (noPoint '.' (by rw [front]; rfl))
    · simp [someDigit, exponent]

theorem isWritten_of_scan {characters rest : List Char} {numeral : Numeral}
    (found : scan characters = some (numeral, rest)) : numeral.IsWritten := by
  have areDigits (characters : List Char) :
      ∀ c ∈ characters.takeWhile isDigit, isDigit c = true :=
    List.all_eq_true.1 List.all_takeWhile
  simp only [scan] at found
  split at found
  · rename_i tail point
    split at found
    · simp at found
    · rename_i someDigit
      simp only [Option.some.injEq, Prod.mk.injEq] at found
      obtain ⟨rfl, -⟩ := found
      refine ⟨areDigits _, areDigits _, ?_, Exponent.isWritten_of_scan⟩
      simp only [Bool.and_eq_true, List.isEmpty_iff] at someDigit
      exact Decidable.not_and_iff_or_not.1 someDigit
  · split at found
    · simp at found
    · rename_i someDigit
      simp only [Option.some.injEq, Prod.mk.injEq] at found
      obtain ⟨rfl, -⟩ := found
      refine ⟨areDigits _, by simp [fractionDigits], ?_, Exponent.isWritten_of_scan⟩
      simpa [fractionDigits] using someDigit

theorem chars_head {numeral : Numeral} (written : numeral.IsWritten) :
    ∃ first others, numeral.chars = first :: others ∧ (isDigit first = true ∨ first = '.') := by
  obtain ⟨whole, fraction, power⟩ := numeral
  obtain ⟨wholeDigits, fractionDigits, nonempty, -⟩ := written
  cases whole with
  | cons first others =>
    exact ⟨first, _, rfl, .inl (wholeDigits first List.mem_cons_self)⟩
  | nil =>
    cases fraction with
    | none => simp [Numeral.fractionDigits] at nonempty
    | some places => exact ⟨'.', _, rfl, .inr rfl⟩

theorem chars_head_visible {numeral : Numeral} (written : numeral.IsWritten) :
    ∃ first others, numeral.chars = first :: others ∧ isBlank first = false ∧
      Sign.ofChar? first = none := by
  obtain ⟨first, others, shape, isFirst⟩ := numeral.chars_head written
  refine ⟨first, others, shape, ?_⟩
  rcases isFirst with digit | rfl
  · have visible : isBlank first = false := by
      apply Bool.eq_false_iff.2
      intro blank
      exact absurd digit (by simp [not_isDigit_of_isBlank blank])
    exact ⟨visible, Sign.ofChar?_of_isDigit digit⟩
  · decide

end Numeral

end Reckoner
