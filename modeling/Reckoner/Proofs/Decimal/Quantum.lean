import Reckoner.Decimal.Shortest
import Reckoner.Proofs.Binary64.TiesToEven
import Reckoner.Proofs.Decimal.Repetition

/-!
# Rounding as decimal arithmetic does it

A finite double is exactly a decimal number, and decimal arithmetic brings a number to an exponent:
it writes zeros behind the digits or drops digits, and a half of the last one that is kept rounds
up. It works with a limited number of digits and with limited exponents, and gives no number that
does not fit. What it gives is turned into the nearest double.

With the digits of the exact number, the places asked for and two more, the rounded number always
fits, also if it has one digit more than was kept. So a rounding is refused for its working digits
only, and otherwise its answer is the double nearest to the exact value rounded.
-/

set_option autoImplicit false

namespace Reckoner.Decimal

open Binary64

namespace Scaled

/-- The number of digits that a decimal number is written with. -/
def length (number : Scaled) : ℕ :=
  (Nat.toDigits 10 number.digits).length

/-- The power of ten that the first digit of a decimal number counts. -/
def leading (number : Scaled) : ℤ :=
  number.exponent + number.length - 1

/-- A decimal number with the given exponent in place of its own. Digits that are dropped round the
last one up from a half on. -/
def rescale (number : Scaled) (exponent : ℤ) : Scaled :=
  if exponent ≤ number.exponent then
    ⟨number.digits * 10 ^ (number.exponent - exponent).toNat, exponent⟩
  else
    let unit := 10 ^ (exponent - number.exponent).toNat
    ⟨number.digits / unit + if unit ≤ 2 * (number.digits % unit) then 1 else 0, exponent⟩

end Scaled

/-- The largest power of ten that the first digit of a decimal number may count. -/
def largestExponent : ℤ := 999999

/-- The smallest power of ten that the last one of so many digits may count. -/
def leastExponent (room : ℤ) : ℤ :=
  -largestExponent - room + 1

/-- One unit with the given exponent, if one can be shifted so far. -/
def unit? (room exponent : ℤ) : Option Scaled :=
  if 2 * (largestExponent + room) < |exponent| then none else some ⟨1, exponent⟩

/-- A decimal number brought to the exponent of another one, if the exponent is within its limits
and there is room for the digits. -/
def quantize? (room : ℤ) (number unit : Scaled) : Option Scaled :=
  if unit.exponent < leastExponent room || largestExponent < unit.exponent then none
  else
    let result := number.rescale unit.exponent
    if room < result.length || largestExponent < result.leading then none else some result

/-- The decimal number that the magnitude of a finite double is. -/
def exact (number : Float) : Scaled :=
  ⟨(magnitude number).num.natAbs * 5 ^ exactPlaces number, -exactPlaces number⟩

/-- A magnitude rounded to decimal places by decimal arithmetic. -/
def quantized? (number : Float) (places : ℤ) : Option Scaled :=
  (unit? (workingDigits number places) (-places)).bind
    (quantize? (workingDigits number places) (exact number))

/-- A decimal number writes a rational one with as few decimal places as do. -/
structure Scaled.IsExpansion (expansion : Scaled) (number : ℚ) : Prop where
  value : expansion.value = number
  exponent : expansion.exponent ≤ 0
  shortest : expansion.exponent < 0 → ¬ 10 ∣ expansion.digits

/-- A number rounded to decimal places, halves away from zero. -/
def halvesAway (number : ℚ) (places : ℤ) : ℚ :=
  SignType.sign number * ⌊|number| * 10 ^ places + 1 / 2⌋ / 10 ^ places

/-- What the rounding of a finite double gives: the double nearest to its exact value rounded, with
the sign of the double that was rounded. It is infinite if the rounded value is out of range, and
for that digits in front of the point must have been dropped. -/
structure IsRounding (number : Float) (places : ℤ) (result : Float) : Prop where
  nearest : IsNearest (halvesAway (value number) places) result
  sign : isNegative result = isNegative number
  isInf_iff : result.isInf = true ↔ overflowBound ≤ |halvesAway (value number) places|
  isFinite : 0 ≤ places → result.isFinite = true

/-! ## Bringing a decimal number to an exponent -/

namespace Scaled

variable (number : Scaled) (exponent : ℤ)

theorem length_pos : 0 < number.length :=
  Nat.length_toDigits_pos

theorem digits_lt : number.digits < 10 ^ number.length :=
  (Nat.length_toDigits_le_iff (by decide) number.length_pos).1 (Nat.le_refl _)

theorem exponent_rescale : (number.rescale exponent).exponent = exponent := by
  unfold rescale
  split
  · rfl
  · rfl

/-- Digits that are dropped leave the whole number nearest to the quotient, the larger of two. -/
theorem roundHalfUp_div (digits : ℕ) {unit : ℕ} (positive : 0 < unit) :
    roundHalfUp ((digits : ℚ) / unit) =
      (digits / unit + if unit ≤ 2 * (digits % unit) then 1 else 0 : ℕ) := by
  have unitPos : (0 : ℚ) < unit := by exact_mod_cast positive
  have whole := Nat.div_add_mod digits unit
  have rest := Nat.mod_lt digits positive
  generalize digits / unit = quotient at *
  generalize digits % unit = remainder at *
  have split : (digits : ℚ) / unit = quotient + remainder / unit := by
    rw [← whole, Nat.cast_add, Nat.cast_mul, add_div, mul_div_cancel_left₀ _ unitPos.ne']
  have nonneg : (0 : ℚ) ≤ (remainder : ℚ) / unit := by positivity
  have below : (remainder : ℚ) / unit < 1 := by
    rw [div_lt_one unitPos]
    exact_mod_cast rest
  have half : 1 / 2 ≤ (remainder : ℚ) / unit ↔ unit ≤ 2 * remainder := by
    rw [div_le_div_iff₀ (by norm_num) unitPos, one_mul, mul_comm]
    exact_mod_cast Iff.rfl
  rw [split]
  split_ifs with up
  · have least := half.2 up
    apply roundHalfUp_eq
    · push_cast
      linarith
    · push_cast
      linarith
  · have most := not_le.1 (mt half.1 up)
    apply roundHalfUp_eq
    · push_cast
      linarith
    · push_cast
      linarith

/-- The digits at an exponent are the units of that exponent nearest to the number, halves up. -/
theorem digits_rescale :
    ((number.rescale exponent).digits : ℤ) = roundHalfUp (number.value / 10 ^ exponent) := by
  have power : number.value / 10 ^ exponent =
      number.digits * 10 ^ (number.exponent - exponent) := by
    rw [value, zpow_sub₀ (by norm_num), mul_div_assoc]
  rw [power, rescale]
  split
  · rename_i zeros
    obtain ⟨count, isCount⟩ := Int.eq_ofNat_of_zero_le (sub_nonneg.2 zeros)
    rw [isCount, Int.toNat_natCast, zpow_natCast]
    have whole : (number.digits : ℚ) * 10 ^ count = (number.digits * 10 ^ count : ℕ) := by
      push_cast
      rfl
    rw [whole]
    refine (roundHalfUp_eq ?_ ?_).symm
    · push_cast
      linarith
    · push_cast
      linarith
  · rename_i drops
    obtain ⟨count, isCount⟩ := Int.eq_ofNat_of_zero_le (sub_nonneg.2 (not_le.1 drops).le)
    have inverse : (10 : ℚ) ^ (number.exponent - exponent) = ((10 ^ count : ℕ) : ℚ)⁻¹ := by
      rw [← neg_sub, isCount, zpow_neg, zpow_natCast, Nat.cast_pow, Nat.cast_ofNat]
    rw [inverse, ← div_eq_mul_inv, roundHalfUp_div _ (by positivity), isCount, Int.toNat_natCast]

theorem value_rescale :
    (number.rescale exponent).value =
      roundHalfUp (number.value / 10 ^ exponent) * 10 ^ exponent := by
  rw [value, exponent_rescale, ← digits_rescale, Int.cast_natCast]

theorem value_rescale_of_le {number : Scaled} {exponent : ℤ} (zeros : exponent ≤ number.exponent) :
    (number.rescale exponent).value = number.value := by
  obtain ⟨count, isCount⟩ := Int.eq_ofNat_of_zero_le (sub_nonneg.2 zeros)
  have whole : number.exponent = count + exponent := by omega
  rw [rescale, if_pos zeros, value, value, isCount, Int.toNat_natCast, whole,
    zpow_add₀ (by norm_num), zpow_natCast]
  push_cast
  ring

/-- There is at most one digit more than those that are kept. -/
theorem length_rescale_le {room : ℕ} (some : 0 < room)
    (enough : (number.length : ℤ) + number.exponent - exponent < room) :
    (number.rescale exponent).length ≤ room := by
  have most := number.digits_lt
  refine (Nat.length_toDigits_le_iff (by decide) some).2 ?_
  unfold rescale
  split
  · rename_i zeros
    obtain ⟨count, isCount⟩ := Int.eq_ofNat_of_zero_le (sub_nonneg.2 zeros)
    rw [isCount, Int.toNat_natCast]
    calc number.digits * 10 ^ count < 10 ^ number.length * 10 ^ count :=
          Nat.mul_lt_mul_of_pos_right most (by positivity)
      _ = 10 ^ (number.length + count) := (pow_add _ _ _).symm
      _ ≤ 10 ^ room := Nat.pow_le_pow_right (by decide) (by omega)
  · rename_i drops
    obtain ⟨count, isCount⟩ := Int.eq_ofNat_of_zero_le (sub_nonneg.2 (not_le.1 drops).le)
    rw [isCount, Int.toNat_natCast]
    have kept : number.digits / 10 ^ count < 10 ^ (room - 1) := by
      rw [Nat.div_lt_iff_lt_mul (by positivity), ← pow_add]
      exact most.trans_le (Nat.pow_le_pow_right (by decide) (by omega))
    have carry : 10 ^ (room - 1) < 10 ^ room := Nat.pow_lt_pow_right (by decide) (by omega)
    have last : (if 10 ^ count ≤ 2 * (number.digits % 10 ^ count) then 1 else 0) ≤ 1 := by
      split
      · exact Nat.le_refl 1
      · exact Nat.zero_le 1
    simp only
    omega

/-- A number has only one expansion, so the number of its digits is one of the number. -/
theorem IsExpansion.unique {first second : Scaled} {number : ℚ} (isFirst : first.IsExpansion number)
    (isSecond : second.IsExpansion number) : first = second := by
  have least {first second : Scaled} (isFirst : first.IsExpansion number)
      (isSecond : second.IsExpansion number) : second.exponent ≤ first.exponent := by
    by_contra below
    have zeros := @value_rescale_of_le second first.exponent (by omega)
    rw [isSecond.value, ← isFirst.value, rescale, if_pos (by omega), Scaled.value,
      Scaled.value] at zeros
    have power : (10 : ℚ) ^ first.exponent ≠ 0 := by positivity
    have digits : second.digits * 10 ^ (second.exponent - first.exponent).toNat = first.digits := by
      exact_mod_cast mul_right_cancel₀ power zeros
    refine isFirst.shortest (by have := isSecond.exponent; omega) ?_
    rw [← digits]
    exact Dvd.dvd.mul_left (dvd_pow_self 10 (by omega)) _
  have exponent := le_antisymm (least isSecond isFirst) (least isFirst isSecond)
  have same := isFirst.value.trans isSecond.value.symm
  rw [Scaled.value, Scaled.value, exponent] at same
  have power : (10 : ℚ) ^ second.exponent ≠ 0 := by positivity
  have digits : first.digits = second.digits := by
    exact_mod_cast mul_right_cancel₀ power same
  cases first
  cases second
  cases digits
  cases exponent
  rfl

end Scaled

/-! ## The exact number -/

variable {number : Float}

theorem value_exact (finite : number.isFinite = true) : (exact number).value = magnitude number := by
  have isFraction := magnitude_eq_div finite
  obtain ⟨top, isTop⟩ := Int.eq_ofNat_of_zero_le (Rat.num_nonneg.2 (magnitude_nonneg number))
  have split : (10 : ℚ) ^ exactPlaces number =
      5 ^ exactPlaces number * 2 ^ exactPlaces number := by
    rw [← mul_pow]
    norm_num
  rw [isTop] at isFraction
  rw [exact, Scaled.value, isTop, Int.natAbs_natCast, zpow_neg, zpow_natCast, split, isFraction]
  push_cast
  field_simp

theorem isExpansion_exact (finite : number.isFinite = true) :
    (exact number).IsExpansion |value number| := by
  refine ⟨(value_exact finite).trans (abs_value number).symm,
    neg_nonpos.2 (Int.natCast_nonneg _), fun some ten => ?_⟩
  have places : exactPlaces number ≠ 0 := by
    rintro none
    simp [exact, none] at some
  -- the fraction is reduced and its denominator is even, so its numerator is odd
  have reduced := (magnitude number).reduced
  rw [den_magnitude finite] at reduced
  rcases Nat.prime_two.dvd_mul.1 (Dvd.dvd.trans (by decide) ten) with even | five
  · exact absurd (Nat.Coprime.eq_one_of_dvd (reduced.coprime_dvd_left even)
      (dvd_pow_self 2 places)) (by decide)
  · exact absurd (Nat.prime_two.dvd_of_dvd_pow five) (by decide)

theorem length_exact (number : Float) : (exact number).length = exactDigits number := rfl

theorem roundMagnitude_nonneg {magnitude : ℚ} (nonneg : 0 ≤ magnitude) (places : ℤ) :
    0 ≤ roundMagnitude magnitude places := by
  have units : 0 ≤ roundHalfUp (magnitude * 10 ^ places) :=
    Int.floor_nonneg.2 (by positivity : 0 ≤ magnitude * 10 ^ places + 1 / 2)
  have unitsCast : (0 : ℚ) ≤ roundHalfUp (magnitude * 10 ^ places) := by exact_mod_cast units
  rw [roundMagnitude]
  positivity

theorem value_rescale_exact (finite : number.isFinite = true) (places : ℤ) :
    ((exact number).rescale (-places)).value = roundMagnitude (magnitude number) places := by
  rw [Scaled.value_rescale, value_exact finite, zpow_neg, div_inv_eq_mul, ← div_eq_mul_inv,
    roundMagnitude]

/-- A rounding gives the double nearest to the rounded magnitude also where it keeps the double. -/
theorem rounded_eq_nearest (finite : number.isFinite = true) (places : ℤ) :
    rounded number places =
      nearest (isNegative number) (roundMagnitude (magnitude number) places) := by
  unfold rounded
  split
  · rename_i kept
    have few : -places ≤ (exact number).exponent := by
      rw [finite, Bool.not_true, Bool.false_or, decide_eq_true_eq] at kept
      exact neg_le_neg kept
    rw [← value_rescale_exact finite, Scaled.value_rescale_of_le few, value_exact finite,
      nearest_self (isNaN_of_isFinite finite)]
  · rfl

theorem roundMagnitude_zero (places : ℤ) : roundMagnitude 0 places = 0 := by
  have half : roundHalfUp 0 = 0 := by decide +kernel
  rw [roundMagnitude, zero_mul, half, Int.cast_zero, zero_div]

theorem halvesAway_value (number : Float) (places : ℤ) :
    halvesAway (value number) places =
      withSign (isNegative number) (roundMagnitude (magnitude number) places) := by
  rw [halvesAway, abs_value, value_eq_withSign, mul_div_assoc]
  change _ * roundMagnitude (magnitude number) places = _
  rcases (magnitude_nonneg number).eq_or_lt with none | positive
  · rw [← none, roundMagnitude_zero, mul_zero]
    cases isNegative number <;> rfl
  · cases isNegative number with
    | false => simp [withSign, positive]
    | true => simp [withSign, positive]

/-! ## Room for the digits -/

theorem length_rescale_exact_le (finite : number.isFinite = true) {places : ℤ}
    (least : 1 ≤ workingDigits number places) :
    (((exact number).rescale (-places)).length : ℤ) ≤ workingDigits number places := by
  obtain ⟨room, isRoom⟩ := Int.eq_ofNat_of_zero_le (by omega : 0 ≤ workingDigits number places)
  have exponent := (isExpansion_exact finite).exponent
  rw [isRoom, Nat.cast_le]
  apply Scaled.length_rescale_le
  · omega
  · rw [← isRoom, workingDigits, length_exact]
    omega

/-- The working digits hold the rounded number, and its exponent is within its limits. -/
theorem quantized?_eq (finite : number.isFinite = true) {places : ℤ}
    (least : 1 ≤ workingDigits number places) :
    quantized? number places = some ((exact number).rescale (-places)) := by
  -- with no digit to work with the places would be refused, so they drop no more digits than there
  -- are, and the longest double is far from the limits of the exponents
  have few := exactDigits_le finite
  have fits := length_rescale_exact_le finite least
  have unit : unit? (workingDigits number places) (-places) = some ⟨1, -places⟩ := by
    refine if_neg ?_
    have most : |-places| ≤ max places (-places) := by rw [abs_neg, abs_eq_max_neg]
    simp only [workingDigits, largestExponent] at least ⊢
    omega
  rw [quantized?, unit, Option.bind_some, quantize?, if_neg, if_neg]
  · rw [Bool.or_eq_true, decide_eq_true_eq, decide_eq_true_eq, Scaled.leading,
      Scaled.exponent_rescale]
    simp only [workingDigits, largestExponent] at least fits ⊢
    omega
  · rw [Bool.or_eq_true, decide_eq_true_eq, decide_eq_true_eq]
    simp only [workingDigits, leastExponent, largestExponent] at least ⊢
    omega

/-! ## The rounded double -/

theorem isFinite_rounded (finite : number.isFinite = true) {places : ℤ} (nonneg : 0 ≤ places) :
    (rounded number places).isFinite = true := by
  obtain ⟨count, rfl⟩ := Int.eq_ofNat_of_zero_le nonneg
  unfold rounded
  split
  · exact finite
  · rename_i changed
    rw [finite, Bool.not_true, Bool.false_or, decide_eq_true_eq] at changed
    have most : magnitude number ≤ hiddenBit := magnitude_le_of_exactPlaces_pos (by omega)
    rw [isFinite_iff, magnitudeBits_nearest]
    exact nearestBits_lt (roundMagnitude_lt most count) (by decide)

theorem isRounding_rounded (finite : number.isFinite = true) (places : ℤ) :
    IsRounding number places (rounded number places) := by
  have nonneg := roundMagnitude_nonneg (magnitude_nonneg number) places
  have isNearest := rounded_eq_nearest finite places
  have target := halvesAway_value number places
  refine ⟨?_, ?_, ?_, isFinite_rounded finite⟩
  · rw [isNearest, target]
    exact isNearest_nearest _ nonneg
  · rw [isNearest, isNegative_nearest]
  · rw [isNearest, target, abs_withSign, abs_of_nonneg nonneg]
    exact isInf_nearest_iff _ nonneg

/-- A finite double is rounded on its exact value, halves away from zero. The rounding is refused
for the number of its working digits only: it is that of the exact value, the places and two more,
and decimal arithmetic has room for the rounded value in so many. -/
theorem rounds_exact_value (finite : number.isFinite = true) (places : ℤ) :
    (exact number).IsExpansion |value number| ∧
      workingDigits number places = (exact number).length + places + 2 ∧
      ((∃ error, roundHalfAway number places = .error error) ↔
        workingDigits number places < 1 ∨ maxWorkingDigits < workingDigits number places) ∧
      (1 ≤ workingDigits number places → ∃ kept, quantized? number places = some kept ∧
        kept.length ≤ workingDigits number places ∧
        withSign (isNegative number) kept.value = halvesAway (value number) places) ∧
      (1 ≤ workingDigits number places → workingDigits number places ≤ maxWorkingDigits →
        ∃ result, roundHalfAway number places = .ok result ∧ IsRounding number places result) := by
  refine ⟨isExpansion_exact finite, rfl, refused_iff finite, fun least => ?_, fun least most => ?_⟩
  · refine ⟨_, quantized?_eq finite least, length_rescale_exact_le finite least, ?_⟩
    rw [value_rescale_exact finite, halvesAway_value]
  · exact ⟨_, roundHalfAway_of_working least most, isRounding_rounded finite places⟩

/-- The half of 99.5 is carried into a third digit. -/
theorem rounds_exact_value_of_carry :
    let number := Float.ofBits 0x4058E00000000000
    number.isFinite = true ∧ workingDigits number 0 = 5 ∧ halvesAway (value number) 0 = 100 ∧
      ∃ result, roundHalfAway number 0 = .ok result ∧ IsRounding number 0 result := by
  intro number
  have finite : number.isFinite = true := by decide +kernel
  have working : workingDigits number 0 = 5 := by decide +kernel
  obtain ⟨-, -, -, -, accepted⟩ := rounds_exact_value finite 0
  rw [working] at accepted
  exact ⟨finite, working, by decide +kernel, accepted (by decide) (by decide)⟩

end Reckoner.Decimal
