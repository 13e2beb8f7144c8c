import Reckoner.Proofs.Binary64.TiesToEven
import Reckoner.Proofs.Decimal.Display
import Reckoner.Proofs.Json.Digits
import Reckoner.Proofs.OperandText

/-!
# What is displayed of a number

A result is written with fixed places, and displayed without the zeros at the end of its fraction,
without a point that nothing follows, and without the sign of a zero. What is displayed writes the
same number: the digits in front of the point are all kept, and the zeros that are dropped count
nothing. It is canonical, so that displaying it again changes nothing.
-/

set_option autoImplicit false

namespace Reckoner

open Text Binary64

/-- The number that a signed numeral writes. -/
def SignedNumeral.value (signed : SignedNumeral) : ℚ :=
  withSign (signed.sign = some .minus) signed.numeral.value

namespace Decimal

/-- The number that a text writes, if the text is a numeral as a whole. -/
def written? (text : String) : Option ℚ :=
  match SignedNumeral.scan text.toList with
  | some (signed, []) => some signed.value
  | _ => none

/-- A whole number is nearest to a rational one, and of two the even one. -/
structure IsNearestEven (number : ℚ) (whole : ℤ) : Prop where
  nearest : ∀ other : ℤ, |(whole : ℚ) - number| ≤ |(other : ℚ) - number|
  even : ∀ other : ℤ, other ≠ whole →
    |(other : ℚ) - number| = |(whole : ℚ) - number| → 2 ∣ whole

/-- The characters of a written number between its sign and its point. -/
def wholeChars (text : String) : List Char :=
  (text.toList.dropWhile (· = '-')).takeWhile (· ≠ '.')

/-- A text without a zero at the end of a fraction and without a point at its end, that is neither
empty nor a zero with a sign. -/
structure IsCanonical (text : String) : Prop where
  nonempty : text ≠ ""
  positiveZero : text ≠ "-0"
  point : text.toList.getLast? ≠ some '.'
  fraction : (fractionChars text).getLast? ≠ some '0'

end Decimal

/-! ## Numerals as results are written -/

namespace SignedNumeral

/-- A numeral with digits in front of its point, if it has one, with at most a minus in front of
them, and without an exponent. -/
structure IsPositional (signed : SignedNumeral) : Prop where
  written : signed.numeral.IsWritten
  whole : signed.numeral.whole ≠ []
  sign : signed.sign ≠ some .plus
  exponent : signed.numeral.exponent = none

/-- The digits of a fraction without the zeros at its end. -/
def decimals (signed : SignedNumeral) : List Char :=
  Decimal.dropTrailing (· == '0') signed.numeral.fractionDigits

/-- A numeral without the zeros at the end of its fraction, without the fraction if nothing else is
in it, and then without the sign of a zero. -/
def trimmed (signed : SignedNumeral) : SignedNumeral :=
  if signed.decimals = [] then
    ⟨if signed.numeral.whole = ['0'] then none else signed.sign, ⟨signed.numeral.whole, none, none⟩⟩
  else ⟨signed.sign, ⟨signed.numeral.whole, some signed.decimals, none⟩⟩

variable {signed : SignedNumeral}

theorem whole_trimmed (signed : SignedNumeral) :
    signed.trimmed.numeral.whole = signed.numeral.whole := by
  unfold trimmed
  split
  · rfl
  · rfl

theorem IsPositional.isDigit_decimals (positional : signed.IsPositional) :
    ∀ c ∈ signed.decimals, isDigit c = true :=
  fun c member => positional.written.fraction c ((List.rdropWhile_prefix _ _).subset member)

theorem IsPositional.trimmed (positional : signed.IsPositional) : signed.trimmed.IsPositional := by
  have areDigits := positional.written.whole
  have whole := positional.whole
  unfold SignedNumeral.trimmed
  split
  · refine ⟨⟨areDigits, nofun, .inl whole, nofun⟩, whole, ?_, rfl⟩
    split
    · exact nofun
    · exact positional.sign
  · exact ⟨⟨areDigits, positional.isDigit_decimals, .inl whole, nofun⟩, whole, positional.sign, rfl⟩

/-! ## The number that is written -/

theorem written?_chars (written : signed.numeral.IsWritten) :
    Decimal.written? (String.ofList signed.chars) = some signed.value := by
  have whole := @Numeral.scan_chars_append _ written [] nofun
  rw [List.append_nil] at whole
  simp only [Decimal.written?, String.toList_ofList, scan, scan_sign written, whole,
    Option.map_some]

theorem exists_zeros (signed : SignedNumeral) :
    ∃ count, signed.numeral.fractionDigits = signed.decimals ++ List.replicate count '0' := by
  have split := @List.rdropWhile_append_rtakeWhile _ (· == '0') signed.numeral.fractionDigits
  have zeros := List.eq_replicate_of_mem fun c member =>
    eq_of_beq (@List.mem_rtakeWhile_imp _ (· == '0') signed.numeral.fractionDigits c member)
  rw [zeros] at split
  exact ⟨_, split.symm⟩

/-- Zeros at the end of a fraction count nothing. -/
theorem value_append_zeros (whole digits : List Char) (count : ℕ) :
    Numeral.value ⟨whole, some (digits ++ List.replicate count '0'), none⟩ =
      Numeral.value ⟨whole, some digits, none⟩ := by
  simp only [Numeral.value, Numeral.coefficient, Numeral.scale, Numeral.fractionDigits,
    Option.getD_some, Option.map_none, Option.getD_none, List.length_append, List.length_replicate,
    ← List.append_assoc, digitsValue_append_zeros]
  rw [zero_sub, zero_sub, zpow_neg, zpow_neg, zpow_natCast, zpow_natCast, pow_add]
  push_cast
  field_simp

theorem value_trimmed (positional : signed.IsPositional) : signed.trimmed.value = signed.value := by
  obtain ⟨count, zeros⟩ := signed.exists_zeros
  have dropped : signed.numeral.value =
      Numeral.value ⟨signed.numeral.whole, some signed.decimals, none⟩ := by
    rw [← value_append_zeros _ _ count, ← zeros]
    simp only [Numeral.value, Numeral.coefficient, Numeral.scale, Numeral.fractionDigits,
      positional.exponent, Option.getD_some]
  unfold trimmed
  split
  · rename_i none
    rw [none] at dropped
    change withSign _ (Numeral.value ⟨signed.numeral.whole, some [], Option.none⟩) = _
    rw [← dropped, value]
    -- the sign is dropped of a zero only, which has none
    split
    · rename_i zero
      have nothing : signed.numeral.value = 0 := by
        rw [dropped, zero]
        decide +kernel
      rw [nothing]
      simp [withSign]
    · rfl
  · rw [value, value, dropped]

/-! ## Its characters -/

/-- The characters in front of the point. -/
def front (signed : SignedNumeral) : List Char :=
  (if signed.sign = some .minus then ['-'] else []) ++ signed.numeral.whole

namespace IsPositional

theorem chars (positional : signed.IsPositional) : signed.chars =
    signed.front ++ (signed.numeral.fraction.map ('.' :: ·)).getD [] := by
  obtain ⟨sign, whole, fraction, exponent⟩ := signed
  obtain rfl : exponent = none := positional.exponent
  cases sign with
  | none => simp [SignedNumeral.chars, Numeral.chars, front]
  | some sign =>
    cases sign with
    | plus => exact absurd rfl positional.sign
    | minus => simp [SignedNumeral.chars, Numeral.chars, front, Sign.char]

theorem point_not_mem_digits {digits : List Char} (areDigits : ∀ c ∈ digits, isDigit c = true) :
    '.' ∉ digits :=
  fun member => absurd (areDigits '.' member) (by decide)

theorem point_not_mem_front (positional : signed.IsPositional) : '.' ∉ signed.front := by
  rw [front, List.mem_append, not_or]
  refine ⟨?_, point_not_mem_digits positional.written.whole⟩
  split
  · decide
  · decide

theorem point_not_mem_fraction (positional : signed.IsPositional) {digits : List Char}
    (isFraction : signed.numeral.fraction = some digits) : '.' ∉ digits := by
  refine point_not_mem_digits fun c member => positional.written.fraction c ?_
  rwa [Numeral.fractionDigits, isFraction]

/-- Only a zero with a sign has the characters of one. -/
theorem front_eq_iff (positional : signed.IsPositional) :
    signed.front = ['-', '0'] ↔ signed.sign = some .minus ∧ signed.numeral.whole = ['0'] := by
  rw [front]
  split
  · rename_i minus
    simp [minus]
  · rename_i other
    refine iff_of_false (fun same => ?_) fun zero => other zero.1
    have dash : '-' ∈ signed.numeral.whole := by
      rw [List.nil_append] at same
      simp [same]
    exact absurd (positional.written.whole '-' dash) (by decide)

/-- The characters in front of the point stay, unless a zero loses its sign. -/
theorem front_trimmed (positional : signed.IsPositional)
    (other : signed.decimals = [] → signed.front ≠ ['-', '0']) :
    signed.trimmed.front = signed.front := by
  unfold SignedNumeral.trimmed
  split
  · rename_i none
    by_cases zero : signed.numeral.whole = ['0']
    · have plain : signed.sign ≠ some .minus := fun minus =>
        other none (positional.front_eq_iff.2 ⟨minus, zero⟩)
      simp [front, zero, plain]
    · simp [front, zero]
  · rfl

theorem front_trimmed_ne (positional : signed.IsPositional) (none : signed.decimals = []) :
    signed.trimmed.front ≠ ['-', '0'] := by
  rw [Ne, positional.trimmed.front_eq_iff, SignedNumeral.trimmed, if_pos none]
  intro zero
  rw [if_pos zero.2] at zero
  exact absurd zero.1 nofun

theorem chars_trimmed (positional : signed.IsPositional) : signed.trimmed.chars =
    signed.trimmed.front ++ if signed.decimals = [] then [] else '.' :: signed.decimals := by
  rw [positional.trimmed.chars]
  by_cases none : signed.decimals = []
  · simp [SignedNumeral.trimmed, none]
  · simp [SignedNumeral.trimmed, none]

/-- A text with a point is trimmed as its numeral is. -/
theorem trimFraction_chars (positional : signed.IsPositional) {fraction : List Char}
    (point : signed.numeral.fraction = some fraction) :
    Decimal.trimFraction (String.ofList signed.chars) = String.ofList signed.trimmed.chars := by
  have isDecimals : Decimal.dropTrailing (· == '0') fraction = signed.decimals := by
    rw [decimals, Numeral.fractionDigits, point, Option.getD_some]
  rw [positional.chars, positional.chars_trimmed, point, Option.map_some, Option.getD_some]
  by_cases none : signed.decimals = []
  · have someFront : signed.front ≠ [] := List.append_ne_nil_of_right_ne_nil _ positional.whole
    rw [if_pos none, List.append_nil,
      Decimal.trimFraction_of_eq_nil positional.point_not_mem_front (isDecimals.trans none)]
    -- text is compared with `-0` as a whole here, where `trimmed` only drops the sign of a zero
    by_cases zero : signed.front = ['-', '0']
    · have whole := (positional.front_eq_iff.1 zero).2
      rw [if_pos (by simp [zero])]
      simp [SignedNumeral.trimmed, front, none, whole]
    · rw [if_neg (by simp [someFront, zero]), positional.front_trimmed fun _ => zero]
  · have noOther := positional.point_not_mem_fraction point
    rw [if_neg none, positional.front_trimmed fun empty => absurd empty none,
      Decimal.trimFraction_of_ne_nil noOther (isDecimals.symm ▸ none), isDecimals]

theorem dropTrailing_decimals (signed : SignedNumeral) :
    Decimal.dropTrailing (· == '0') signed.decimals = signed.decimals :=
  List.rdropWhile_idempotent _ _

theorem trimFraction_trimmed (positional : signed.IsPositional) :
    Decimal.trimFraction (String.ofList signed.trimmed.chars) =
      String.ofList signed.trimmed.chars := by
  have same := dropTrailing_decimals signed
  rw [positional.chars_trimmed]
  split
  · rw [List.append_nil]
    exact Decimal.trimFraction_of_no_point positional.trimmed.point_not_mem_front
  · rename_i some
    have noOther := point_not_mem_digits positional.isDigit_decimals
    rw [Decimal.trimFraction_of_ne_nil noOther (by rwa [same]), same]

theorem wholeChars_chars (positional : signed.IsPositional) :
    Decimal.wholeChars (String.ofList signed.chars) = signed.numeral.whole := by
  obtain ⟨first, rest, isWhole⟩ := List.exists_cons_of_ne_nil positional.whole
  have areDigits := positional.written.whole
  have noDash : first ≠ '-' := by
    rintro rfl
    exact absurd (areDigits '-' (isWhole ▸ List.mem_cons_self)) (by decide)
  have noPoint := point_not_mem_digits areDigits
  have dropped : (signed.front ++ (signed.numeral.fraction.map ('.' :: ·)).getD []).dropWhile
      (· = '-') = signed.numeral.whole ++ (signed.numeral.fraction.map ('.' :: ·)).getD [] := by
    rw [front, isWhole]
    split
    · simp [noDash]
    · simp [noDash]
  rw [Decimal.wholeChars, String.toList_ofList, positional.chars, dropped,
    List.takeWhile_append_of_pos]
  · cases signed.numeral.fraction with
    | none => simp
    | some fraction => simp
  · intro c member
    exact decide_eq_true fun same => noPoint (same ▸ member)

theorem isCanonical_trimmed (positional : signed.IsPositional) :
    Decimal.IsCanonical (String.ofList signed.trimmed.chars) := by
  have noPoint := positional.trimmed.point_not_mem_front
  have someFront : signed.trimmed.front ≠ [] :=
    List.append_ne_nil_of_right_ne_nil _ positional.trimmed.whole
  rw [positional.chars_trimmed]
  split
  · rename_i none
    rw [List.append_nil]
    refine ⟨mt String.ofList_eq.1 someFront,
      mt String.ofList_eq.1 (positional.front_trimmed_ne none), ?_, ?_⟩
    · rw [String.toList_ofList]
      exact fun last => noPoint (List.mem_of_getLast? last)
    · rw [Decimal.fractionChars, String.toList_ofList, ← List.append_nil signed.trimmed.front,
        Decimal.dropWhile_point noPoint]
      exact (Option.some_ne_none '0').symm
  · rename_i some
    have noOther := point_not_mem_digits positional.isDigit_decimals
    have isLast : (signed.trimmed.front ++ '.' :: signed.decimals).getLast? =
        signed.decimals.getLast? := by
      rw [List.getLast?_append_of_ne_nil _ (List.cons_ne_nil _ _),
        List.getLast?_cons_of_ne_nil some]
    have point : '.' ∈ signed.trimmed.front ++ '.' :: signed.decimals := by simp
    refine ⟨mt String.ofList_eq.1 (List.ne_nil_of_mem point),
      mt String.ofList_eq.1 fun zero => ?_, ?_, ?_⟩
    · rw [zero] at point
      exact absurd point (by decide)
    · rw [String.toList_ofList, isLast]
      exact fun last => noOther (List.mem_of_getLast? last)
    · rw [Decimal.fractionChars, String.toList_ofList, Decimal.dropWhile_point noPoint]
      intro last
      have kept := List.rdropWhile_eq_self_iff.1 (dropTrailing_decimals signed) some
      exact kept (beq_of_eq (List.getLast_of_mem_getLast? last))

end IsPositional

end SignedNumeral

/-! ## Numbers with fixed places -/

namespace Decimal

theorem isNearestEven_roundHalfEven (number : ℚ) : IsNearestEven number (roundHalfEven number) :=
  ⟨abs_roundHalfEven_sub_le number, fun _ => even_roundHalfEven⟩

theorem IsNearestEven.neg {number : ℚ} {whole : ℤ} (isNearest : IsNearestEven number whole) :
    IsNearestEven (-number) (-whole) := by
  have mirror (other : ℤ) : |(other : ℚ) - -number| = |((-other : ℤ) : ℚ) - number| := by
    rw [Int.cast_neg, ← abs_neg]
    ring_nf
  refine ⟨fun other => ?_, fun other different tie => ?_⟩
  · rw [mirror, mirror, neg_neg]
    exact isNearest.nearest _
  · rw [mirror, mirror, neg_neg] at tie
    rw [dvd_neg]
    exact isNearest.even (-other) (fun same => different (by omega)) tie

/-- The numeral that a finite double is written as. -/
def formatted (number : Float) : SignedNumeral :=
  let units := fixedUnits writtenPlaces (magnitude number)
  ⟨if isNegative number then some .minus else none,
    ⟨Nat.toDigits 10 (units / 10 ^ writtenPlaces), some (lastDigits writtenPlaces units), none⟩⟩

theorem isPositional_formatted (number : Float) : (formatted number).IsPositional := by
  have areDigits : ∀ c ∈ Nat.toDigits 10 (fixedUnits writtenPlaces (magnitude number) /
      10 ^ writtenPlaces) ++ lastDigits writtenPlaces (fixedUnits writtenPlaces (magnitude number)),
      isDigit c = true := by
    intro c member
    rw [← paddedDigits_eq] at member
    exact isDigit_of_mem_paddedDigits member
  refine ⟨⟨fun c member => ?_, fun c member => ?_, .inl Nat.toDigits_ne_nil, nofun⟩,
    Nat.toDigits_ne_nil, ?_, rfl⟩
  · exact areDigits c (List.mem_append_left _ member)
  · exact areDigits c (List.mem_append_right _ member)
  · unfold formatted
    cases isNegative number <;> exact nofun

theorem format_eq {number : Float} (finite : number.isFinite = true) :
    format number = String.ofList (formatted number).chars := by
  have positional := isPositional_formatted number
  rw [format, fixed_of_isFinite finite, placePoint_eq, positional.chars]
  cases sign : isNegative number with
  | false => simp [formatted, SignedNumeral.front, sign]
  | true => simp [formatted, SignedNumeral.front, sign]

theorem digitsValue_places (places units : ℕ) :
    digitsValue (Nat.toDigits 10 (units / 10 ^ places) ++ lastDigits places units) = units := by
  rw [← paddedDigits_eq]
  simp only [paddedDigits]
  rw [digitsValue_zeros_append, digitsValue_toDigits]

theorem value_formatted (number : Float) : (formatted number).value =
    withSign (isNegative number)
      (fixedUnits writtenPlaces (magnitude number) / 10 ^ writtenPlaces) := by
  have sign : decide ((formatted number).sign = some .minus) = isNegative number := by
    unfold formatted
    cases isNegative number <;> rfl
  have scale : (formatted number).numeral.scale = -writtenPlaces := by
    simp [formatted, Numeral.scale, Numeral.fractionDigits]
  have coefficient : (formatted number).numeral.coefficient =
      fixedUnits writtenPlaces (magnitude number) := digitsValue_places _ _
  rw [SignedNumeral.value, sign, Numeral.value, scale, coefficient, zpow_neg, zpow_natCast,
    div_eq_mul_inv]

/-- What is written is the nearest whole number of units in the last place. -/
theorem exists_units (number : Float) : ∃ units : ℤ,
    IsNearestEven (value number * 10 ^ writtenPlaces) units ∧
      (formatted number).value = units / 10 ^ writtenPlaces := by
  have isUnits := natCast_fixedUnits writtenPlaces (magnitude_nonneg number)
  have near := isNearestEven_roundHalfEven (magnitude number * 10 ^ writtenPlaces)
  rw [← isUnits] at near
  rw [value_formatted, value_eq_withSign]
  cases isNegative number with
  | false => exact ⟨_, near, by simp [withSign]⟩
  | true =>
    refine ⟨-fixedUnits writtenPlaces (magnitude number), ?_, ?_⟩
    · rw [withSign, if_pos rfl, neg_mul]
      exact near.neg
    · simp [withSign, neg_div]

/-- A finite result is displayed in the canonical form of its value to fifteen places. -/
theorem display_is_canonical {number : Float} (finite : number.isFinite = true) :
    ∃ units : ℤ, IsNearestEven (value number * 10 ^ 15) units ∧
      written? (format number) = some ((units : ℚ) / 10 ^ 15) ∧
      written? (trimFraction (format number)) = some ((units : ℚ) / 10 ^ 15) ∧
      wholeChars (trimFraction (format number)) = wholeChars (format number) ∧
      IsCanonical (trimFraction (format number)) ∧
      trimFraction (trimFraction (format number)) = trimFraction (format number) ∧
      ∀ (calculator : Calculator) (random : RandomSource) (text : String) (report : Report),
        (calculator.evaluate random text).1 = .ok report → report.definesVariable = false →
        report.value = number → report.display = some (trimFraction (format number)) := by
  have positional := isPositional_formatted number
  have trimmed := positional.trimFraction_chars rfl
  obtain ⟨units, near, isValue⟩ := exists_units number
  have sameValue := (SignedNumeral.value_trimmed positional).trans isValue
  refine ⟨units, near, ?_⟩
  rw [format_eq finite, trimmed, SignedNumeral.written?_chars positional.written,
    SignedNumeral.written?_chars positional.trimmed.written, isValue, sameValue,
    positional.wholeChars_chars, positional.trimmed.wholeChars_chars, SignedNumeral.whole_trimmed]
  refine ⟨rfl, rfl, rfl, positional.isCanonical_trimmed, positional.trimFraction_trimmed, ?_⟩
  intro calculator random text report evaluated noVariable isNumber
  obtain ⟨-, output⟩ := Calculator.report_of_evaluate evaluated
  rw [Report.display, output noVariable, isNumber, Option.map_some, format_eq finite, trimmed]

/-- A number that is negligible at fifteen places loses its sign. -/
theorem display_is_canonical_of_negligible :
    let number := Float.ofBits 0xBC9CD2B297D889BC
    number.isFinite = true ∧ format number = "-0.000000000000000" ∧
      (∃ units : ℤ, IsNearestEven (value number * 10 ^ 15) units ∧
        written? (format number) = some ((units : ℚ) / 10 ^ 15)) ∧
      ∃ report, (({} : Calculator).evaluate (.cycling []) "-1e-16").1 = .ok report ∧
        report.definesVariable = false ∧ report.value = number ∧ report.display = some "0" := by
  intro number
  have finite : number.isFinite = true := by decide +kernel
  have shown : trimFraction (format number) = "0" := by decide +kernel
  obtain ⟨units, near, isWritten, -, -, -, -, display⟩ := display_is_canonical finite
  refine ⟨finite, by decide +kernel, ⟨units, near, isWritten⟩, ?_⟩
  have told : (({} : Calculator).evaluate (.cycling []) "-1e-16").1.toOption.map
      (fun report => (report.value.toBits, report.definesVariable)) =
        some (0xBC9CD2B297D889BC, false) := by decide +kernel
  cases evaluated : (({} : Calculator).evaluate (.cycling []) "-1e-16").1 with
  | error failure =>
    rw [evaluated] at told
    cases told
  | ok report =>
    rw [evaluated] at told
    obtain ⟨bits, noVariable⟩ := Prod.mk.inj (Option.some.inj told)
    have isNumber : report.value = number := by rw [← Float.ofBits_toBits report.value, bits]
    exact ⟨report, rfl, noVariable, isNumber,
      (display _ _ _ report evaluated noVariable isNumber).trans (congrArg some shown)⟩

end Decimal

end Reckoner
