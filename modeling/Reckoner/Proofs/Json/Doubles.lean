import Reckoner.Json.Printer
import Reckoner.Proofs.Decimal.Shortest
import Reckoner.Proofs.Json.Digits

/-!
# The texts of doubles

A finite double is written as a numeral of JSON with a fraction or an exponent, and the numeral
reads back as the double.
-/

set_option autoImplicit false

namespace Reckoner.Json

open Binary64 Text Decimal

/-! ## Digits without the zeros at their end -/

theorem exists_zeros (digits : List Char) :
    ∃ count, digits = (digits.reverse.dropWhile (· == '0')).reverse ++ List.replicate count '0' := by
  refine ⟨(digits.reverse.takeWhile (· == '0')).length, ?_⟩
  have zeros : digits.reverse.takeWhile (· == '0') =
      List.replicate (digits.reverse.takeWhile (· == '0')).length '0' :=
    List.eq_replicate_of_mem fun c member =>
      eq_of_beq (@List.mem_takeWhile_imp _ (· == '0') _ _ member)
  have whole := @List.takeWhile_append_dropWhile _ (· == '0') digits.reverse
  rw [← List.reverse_inj, List.reverse_append, List.reverse_replicate, List.reverse_reverse,
    ← zeros, whole]

/-- Digits of which the last counts a power of ten, and which read back as a double. -/
structure Shown (bits : ℕ) (digits : List Char) (exponent : ℤ) : Prop where
  areDigits : AreDigits digits
  leading : digits.head? ≠ some '0'
  rounds : roundsTo bits (digitsValue digits * (10 : ℚ) ^ exponent) = true
  least : -340 ≤ exponent
  most : exponent + digits.length ≤ 309

variable {bits : ℕ}

theorem lt_of_roundsTo {number : ℚ} (finite : bits < infinityBits)
    (rounds : roundsTo bits number = true) : number < 10 ^ (309 : ℤ) := by
  have below : number ≤ upper bits := by
    rw [roundsTo_iff] at rounds
    split at rounds
    · exact rounds.2
    · exact rounds.2.le
  calc number ≤ upper bits := below
    _ < (2 * hiddenBit : ℕ) * 2 ^ place bits := upper_lt bits
    _ ≤ 2 ^ (53 : ℤ) * 2 ^ (971 : ℤ) := by
      gcongr
      · norm_num [hiddenBit]
      · norm_num
      · exact place_le finite
    _ < 10 ^ (309 : ℤ) := highest_power

/-- The digits of a positive number are not all zeros, and the exponent counts those left out. -/
theorem exists_normalize {number : Scaled} (positive : 0 < number.digits) :
    ∃ count : ℕ, Nat.toDigits 10 number.digits = (normalize number).1 ++ List.replicate count '0' ∧
      (normalize number).2 = number.exponent + count ∧ (normalize number).1 ≠ [] := by
  obtain ⟨count, whole⟩ := exists_zeros (Nat.toDigits 10 number.digits)
  have leading := head?_toDigits_ne_zero positive
  have some := @Nat.length_toDigits_pos 10 number.digits
  unfold normalize
  simp only
  generalize Nat.toDigits 10 number.digits = digits at *
  generalize (digits.reverse.dropWhile (· == '0')).reverse = kept at *
  refine ⟨count, whole, ?_, ?_⟩
  · rw [whole, List.length_append, List.length_replicate, Nat.add_sub_cancel_left]
  · rintro rfl
    rw [List.nil_append] at whole
    rw [whole, List.length_replicate] at some
    rw [whole, List.head?_replicate, if_neg some.ne'] at leading
    exact leading rfl

/-- The normalized digits of a number that rounds to a double still do. -/
theorem shown_normalize {number : Scaled} (finite : bits < infinityBits)
    (reads : ReadsBack bits number) : Shown bits (normalize number).1 (normalize number).2 := by
  obtain ⟨count, whole, exponent, nonempty⟩ := exists_normalize reads.digits
  have written := digitsValue_toDigits number.digits
  have value : (digitsValue (normalize number).1 : ℚ) * 10 ^ (normalize number).2 =
      number.value := by
    rw [Scaled.value, ← written, whole, exponent, digitsValue_append_zeros,
      zpow_add₀ (by norm_num), zpow_natCast]
    push_cast
    ring
  have power : (10 : ℚ) ^ (((Nat.toDigits 10 number.digits).length - 1 : ℕ) + number.exponent) <
      10 ^ (309 : ℤ) := by
    refine lt_of_le_of_lt ?_ (lt_of_roundsTo finite reads.rounds)
    rw [zpow_add₀ (by norm_num), zpow_natCast, Scaled.value]
    gcongr
    exact_mod_cast pow_le_of_toDigits reads.digits.ne'
  have below := (zpow_lt_zpow_iff_right₀ (by norm_num)).1 power
  have length := congrArg List.length whole
  rw [List.length_append, List.length_replicate] at length
  refine ⟨⟨nonempty, fun c member => ?_⟩, ?_, ?_, ?_, ?_⟩
  · refine (areDigits_toDigits number.digits).ascii c ?_
    rw [whole]
    exact List.mem_append_left _ member
  · have leading := head?_toDigits_ne_zero reads.digits
    rwa [whole, List.head?_append_of_ne_nil _ nonempty] at leading
  · rw [value]
    exact reads.rounds
  · have atLeast := reads.least
    omega
  · omega

/-! ## Numerals with those digits -/

/-- A numeral with a fraction or an exponent that writes a number with given characters. -/
structure Spells (numeral : Numeral) (characters : List Char) (number : ℚ) : Prop where
  isNumeral : IsNumeral numeral
  double : numeral.fraction.isSome ∨ numeral.exponent.isSome
  chars : numeral.chars = characters
  value : numeral.value = number
  least : -340 ≤ numeral.scale
  most : numeral.scale ≤ 400

theorem ofDecimal_eq_nearest {digits : ℕ} {exponent : ℤ} (negative : Bool) (some : digits ≠ 0)
    (least : -340 ≤ exponent) (most : exponent ≤ 400) :
    ofDecimal negative digits exponent = nearest negative ((digits : ℚ) * 10 ^ exponent) := by
  unfold ofDecimal
  rw [if_neg some, if_neg (by omega), if_neg (by omega)]

/-- A numeral that writes a number which rounds to a double reads as the double. -/
theorem Spells.toFloat {numeral : Numeral} {characters : List Char} {number : ℚ}
    (spells : Spells numeral characters number) (positive : 0 < bits) (finite : bits < infinityBits)
    (rounds : roundsTo bits number = true) (negative : Bool) :
    numeral.toFloat negative = ofMagnitudeBits negative bits := by
  have some : numeral.coefficient ≠ 0 := by
    intro zero
    have nothing := pos_of_roundsTo positive rounds
    rw [← spells.value, Numeral.value, zero, Nat.cast_zero, zero_mul] at nothing
    exact nothing.false
  have value : (numeral.coefficient : ℚ) * 10 ^ numeral.scale = number := spells.value
  rw [Numeral.toFloat, ofDecimal_eq_nearest negative some spells.least spells.most, value, nearest,
    nearestBits_of_roundsTo positive finite rounds]

variable {digits : List Char} {exponent : ℤ}

theorem isWhole_of_leading (areDigits : AreDigits digits) (leading : digits.head? ≠ some '0') :
    IsWhole digits :=
  ⟨areDigits, fun zero => absurd zero leading⟩

theorem areDigits_zero : AreDigits ['0'] :=
  ⟨nofun, fun c member => by rw [List.mem_singleton.1 member]; rfl⟩

/-- Without an exponent mark, and with zeros behind the digits. -/
theorem Shown.spells_of_nonneg (shown : Shown bits digits exponent) (nonneg : 0 ≤ exponent) :
    Spells ⟨digits ++ List.replicate exponent.toNat '0', some ['0'], none⟩
      (positional digits exponent) (digitsValue digits * 10 ^ exponent) where
  isNumeral := by
    refine ⟨isWhole_of_leading ?_ ?_, ?_, nofun⟩
    · exact areDigits_append shown.areDigits fun c member => isAsciiDigit_of_mem_zeros member
    · rw [List.head?_append_of_ne_nil _ shown.areDigits.nonempty]
      exact shown.leading
    · intro fraction isFraction
      obtain rfl := Option.some.inj isFraction
      exact areDigits_zero
  double := .inl rfl
  chars := by
    rw [positional, if_pos nonneg]
    simp [Numeral.chars]
  value := by
    obtain ⟨count, rfl⟩ := Int.eq_ofNat_of_zero_le nonneg
    have coefficient := digitsValue_append_zeros digits (count + 1)
    rw [List.replicate_succ', ← List.append_assoc] at coefficient
    simp only [Numeral.value, Numeral.coefficient, Numeral.scale, Numeral.fractionDigits,
      Option.getD_some, Option.map_none, Option.getD_none, List.length_singleton, Int.toNat_natCast,
      coefficient]
    rw [zpow_natCast]
    push_cast
    rw [pow_succ, zpow_neg_one]
    ring
  least := by simp [Numeral.scale, Numeral.fractionDigits]
  most := by simp [Numeral.scale, Numeral.fractionDigits]

/-- Digits with the point in front of some of them, where a zero in front stands alone. -/
theorem spells_point {padded : List Char} {places : ℕ}
    (ascii : ∀ c ∈ padded, isAsciiDigit c = true) (several : 0 < places) (few : places ≤ 340)
    (inside : places < padded.length)
    (leading : padded.head? = some '0' → padded.length = places + 1) :
    Spells
      ⟨padded.take (padded.length - places), some (padded.drop (padded.length - places)), none⟩
      (padded.take (padded.length - places) ++ '.' :: padded.drop (padded.length - places))
      (digitsValue padded * 10 ^ (-places : ℤ)) := by
  have front : (padded.take (padded.length - places)).length = padded.length - places := by
    rw [List.length_take]
    omega
  have back : (padded.drop (padded.length - places)).length = places := by
    rw [List.length_drop]
    omega
  have scale : Numeral.scale ⟨padded.take (padded.length - places),
      some (padded.drop (padded.length - places)), none⟩ = -places := by
    simp only [Numeral.scale, Numeral.fractionDigits, Option.getD_some, Option.map_none,
      Option.getD_none, back, zero_sub]
  refine ⟨⟨⟨⟨?_, ?_⟩, ?_⟩, ?_, nofun⟩, .inl rfl, ?_, ?_, ?_, ?_⟩
  · rw [← List.length_pos_iff, front]
    omega
  · exact fun c member => ascii c (List.mem_of_mem_take member)
  · intro zero
    rw [List.head?_take, if_neg (by omega)] at zero
    have single : (padded.take (padded.length - places)).length = 1 := by
      have length := leading zero
      omega
    obtain ⟨c, isSingle⟩ := List.length_eq_one_iff.1 single
    have first := congrArg List.head? isSingle
    rw [List.head?_take, if_neg (by omega), zero] at first
    rw [isSingle, Option.some.inj first]
  · intro fraction isFraction
    obtain rfl := Option.some.inj isFraction
    refine ⟨?_, fun c member => ascii c (List.mem_of_mem_drop member)⟩
    rw [← List.length_pos_iff, back]
    exact several
  · simp [Numeral.chars]
  · rw [Numeral.value, scale]
    simp only [Numeral.coefficient, Numeral.fractionDigits, Option.getD_some,
      List.take_append_drop]
  · rw [scale]
    omega
  · rw [scale]
    omega

/-- Without an exponent mark, and with the point among the digits or behind zeros. -/
theorem Shown.spells_of_neg (shown : Shown bits digits exponent) (neg : exponent < 0) :
    ∃ numeral, Spells numeral (positional digits exponent) (digitsValue digits * 10 ^ exponent) := by
  obtain ⟨places, rfl⟩ := Int.exists_eq_neg_ofNat neg.le
  have least := shown.least
  have length : (List.replicate (places + 1 - digits.length) '0' ++ digits).length =
      max (places + 1) digits.length := by
    rw [List.length_append, List.length_replicate]
    omega
  have ascii : ∀ c ∈ List.replicate (places + 1 - digits.length) '0' ++ digits,
      isAsciiDigit c = true := by
    intro c member
    obtain zero | digit := List.mem_append.1 member
    · exact isAsciiDigit_of_mem_zeros zero
    · exact shown.areDigits.ascii c digit
  -- Without zeros in front the first digit is that of the number, and no zero.
  have leading : (List.replicate (places + 1 - digits.length) '0' ++ digits).head? = some '0' →
      (List.replicate (places + 1 - digits.length) '0' ++ digits).length = places + 1 := by
    intro zero
    rcases Nat.lt_or_ge digits.length (places + 1) with padding | enough
    · omega
    · rw [Nat.sub_eq_zero_of_le enough] at zero
      exact absurd zero shown.leading
  have spells := spells_point ascii (by omega) (by omega) (by omega) leading
  rw [digitsValue_zeros_append] at spells
  rw [positional, if_neg (Int.not_le.2 neg), Int.neg_neg, Int.toNat_natCast]
  exact ⟨_, spells⟩

/-- The exponent that is shown behind a mark. -/
def exponentOf (leading : ℤ) : Exponent :=
  ⟨'e', some (if leading < 0 then .minus else .plus),
    List.replicate (2 - (Nat.toDigits 10 leading.natAbs).length) '0' ++
      Nat.toDigits 10 leading.natAbs⟩

theorem isExponent_exponentOf (leading : ℤ) : IsExponent (exponentOf leading) where
  mark := .inl rfl
  digits := by
    refine ⟨List.append_ne_nil_of_right_ne_nil _ Nat.toDigits_ne_nil, fun c member => ?_⟩
    obtain zero | digit := List.mem_append.1 member
    · exact isAsciiDigit_of_mem_zeros zero
    · exact (areDigits_toDigits _).ascii c digit

theorem value_exponentOf (leading : ℤ) : (exponentOf leading).value = leading := by
  simp only [Exponent.value, exponentOf, digitsValue_zeros_append, digitsValue_toDigits]
  rcases Int.lt_or_le leading 0 with below | above
  · rw [if_pos below, if_pos rfl, Int.ofNat_natAbs_of_nonpos below.le, Int.neg_neg]
  · rw [if_neg (Int.not_lt.2 above), if_neg nofun, Int.natAbs_of_nonneg above]

theorem chars_exponentOf (leading : ℤ) :
    (exponentOf leading).chars = 'e' :: (if leading < 0 then '-' else '+') ::
      (List.replicate (2 - (Nat.toDigits 10 leading.natAbs).length) '0' ++
        Nat.toDigits 10 leading.natAbs) := by
  unfold Exponent.chars exponentOf
  split
  · rfl
  · rfl

/-- The numeral with a point behind the first digit, if others follow it, and with an exponent. -/
def scientificNumeral (first : Char) (rest : List Char) (exponent : ℤ) : Numeral :=
  ⟨[first], if rest = [] then none else some rest, some (exponentOf (exponent + rest.length))⟩

theorem fractionDigits_scientificNumeral (first : Char) (rest : List Char) (exponent : ℤ) :
    (scientificNumeral first rest exponent).fractionDigits = rest := by
  unfold Numeral.fractionDigits scientificNumeral
  split
  · rename_i none
    exact none.symm
  · rfl

theorem scale_scientificNumeral (first : Char) (rest : List Char) (exponent : ℤ) :
    (scientificNumeral first rest exponent).scale = exponent := by
  rw [Numeral.scale, fractionDigits_scientificNumeral]
  simp only [scientificNumeral, Option.map_some, Option.getD_some, value_exponentOf,
    add_sub_cancel_right]

theorem chars_scientificNumeral (first : Char) (rest : List Char) (exponent : ℤ) :
    (scientificNumeral first rest exponent).chars =
      scientific (first :: rest) (exponent + rest.length) := by
  unfold scientific scientificNumeral
  simp only [Numeral.chars, Option.map_some, Option.getD_some, chars_exponentOf]
  cases rest with
  | nil => rfl
  | cons second others => rfl

theorem isNumeral_scientificNumeral {first : Char} {rest : List Char}
    (ascii : ∀ c ∈ first :: rest, isAsciiDigit c = true) (exponent : ℤ) :
    IsNumeral (scientificNumeral first rest exponent) where
  whole := by
    refine ⟨⟨List.cons_ne_nil first [], fun c member => ?_⟩, fun zero => ?_⟩
    · rw [List.mem_singleton.1 member]
      exact ascii first List.mem_cons_self
    · exact congrArg (fun c => [c]) (Option.some.inj zero)
  fraction := by
    intro digits isFraction
    unfold scientificNumeral at isFraction
    split at isFraction
    · cases isFraction
    · rename_i some
      obtain rfl := Option.some.inj isFraction
      exact ⟨some, fun c member => ascii c (List.mem_cons_of_mem first member)⟩
  exponent := by
    rintro _ ⟨⟩
    exact isExponent_exponentOf _

/-- With an exponent mark. -/
theorem Shown.spells_scientific (shown : Shown bits digits exponent) :
    ∃ numeral, Spells numeral (scientific digits (exponent + digits.length - 1))
      (digitsValue digits * 10 ^ exponent) := by
  obtain ⟨first, rest, rfl⟩ := List.exists_cons_of_ne_nil shown.areDigits.nonempty
  have least := shown.least
  have most := shown.most
  have scale := scale_scientificNumeral first rest exponent
  have leading : exponent + (first :: rest).length - 1 = exponent + rest.length := by
    rw [List.length_cons]
    omega
  rw [List.length_cons] at most
  rw [leading]
  refine ⟨scientificNumeral first rest exponent,
    isNumeral_scientificNumeral shown.areDigits.ascii exponent, .inr rfl,
    chars_scientificNumeral first rest exponent, ?_, ?_, ?_⟩
  · rw [Numeral.value, Numeral.coefficient, fractionDigits_scientificNumeral, scale]
    rfl
  · rw [scale]
    exact least
  · rw [scale]
    omega

/-! ## Finite doubles -/

/-- The text of a finite magnitude is a numeral that reads back as it. -/
theorem exists_numeral (finite : bits < infinityBits) :
    ∃ numeral, IsNumeral numeral ∧ (numeral.fraction.isSome ∨ numeral.exponent.isSome) ∧
      magnitudeText bits = numeral.chars ∧
      ∀ negative, numeral.toFloat negative = ofMagnitudeBits negative bits := by
  unfold magnitudeText
  split
  · rename_i zero
    subst zero
    refine ⟨⟨['0'], some ['0'], none⟩, ⟨⟨areDigits_zero, fun _ => rfl⟩, ?_, nofun⟩, .inl rfl, rfl,
      fun negative => ?_⟩
    · rintro _ ⟨⟩
      exact areDigits_zero
    · have nothing : (⟨['0'], some ['0'], none⟩ : Numeral).coefficient = 0 := by decide +kernel
      rw [Numeral.toFloat, nothing]
      rfl
  · rename_i some
    have positive := Nat.pos_of_ne_zero some
    have shown := shown_normalize finite (readsBack_shortest positive finite)
    simp only
    generalize (normalize (shortest bits)).1 = digits at *
    generalize (normalize (shortest bits)).2 = exponent at *
    have spelt : ∃ numeral, Spells numeral
        (if isPositional (exponent + digits.length - 1) then positional digits exponent
          else scientific digits (exponent + digits.length - 1))
        (digitsValue digits * 10 ^ exponent) := by
      split
      · rcases Int.lt_or_le exponent 0 with neg | nonneg
        · exact shown.spells_of_neg neg
        · exact ⟨_, shown.spells_of_nonneg nonneg⟩
      · exact shown.spells_scientific
    obtain ⟨numeral, spells⟩ := spelt
    exact ⟨numeral, spells.isNumeral, spells.double, spells.chars.symm,
      spells.toFloat positive finite shown.rounds⟩

/-! ## All doubles -/

theorem floatText_of_isFinite {number : Float} (finite : number.isFinite = true) :
    (floatText number).toList =
      (if isNegative number then ['-'] else []) ++ magnitudeText (magnitudeBits number) := by
  obtain ⟨-, -, notFinite⟩ | ⟨-, -, notFinite⟩ | ⟨noNaN, notInf, -⟩ := classes number
  · exact Bool.noConfusion (notFinite.symm.trans finite)
  · exact Bool.noConfusion (notFinite.symm.trans finite)
  · simp only [floatText, noNaN, notInf, Bool.false_eq_true, if_false, String.toList_ofList]

theorem floatText_of_isNaN {number : Float} (nan : number.isNaN = true) :
    floatText number = "NaN" := by
  simp only [floatText, nan, if_true]

theorem floatText_of_isInf {number : Float} (infinite : number.isInf = true) :
    floatText number = if isNegative number then "-Infinity" else "Infinity" := by
  obtain ⟨-, notInf, -⟩ | ⟨noNaN, -, -⟩ | ⟨-, notInf, -⟩ := classes number
  · exact Bool.noConfusion (notInf.symm.trans infinite)
  · simp only [floatText, noNaN, infinite, Bool.false_eq_true, if_false, if_true]
    split
    · rfl
    · rfl
  · exact Bool.noConfusion (notInf.symm.trans infinite)

/-- A double is written by its text. One that is not finite takes a level. -/
theorem writes_floatText (levels : ℕ) (number : Float) :
    Writes (levels + 1) (.value (.float number)) (floatText number) := by
  obtain ⟨nan, -, -⟩ | ⟨-, infinite, -⟩ | ⟨-, -, finite⟩ := classes number
  · rw [floatText_of_isNaN nan, eq_notANumber nan]
    exact .constant (by simp [constants])
  · have same := eq_infinity infinite
    rw [floatText_of_isInf infinite]
    cases negative : isNegative number with
    | true =>
      rw [negative] at same
      rw [same]
      exact .constant (by simp [constants])
    | false =>
      rw [negative] at same
      rw [same]
      exact .constant (by simp [constants])
  · obtain ⟨numeral, isNumeral, double, chars, reads⟩ :=
      exists_numeral ((isFinite_iff number).1 finite)
    have same : numeral.toFloat (isNegative number) = number := by
      rw [reads, ofMagnitudeBits_self]
    rw [CodePoints.ofString, floatText_of_isFinite finite, chars]
    cases negative : isNegative number with
    | true =>
      rw [negative] at same
      rw [← same]
      exact .negative (.double isNumeral double)
    | false =>
      rw [negative] at same
      rw [← same]
      exact .number (.double isNumeral double)

end Reckoner.Json
