import Reckoner.Decimal.Fixed
import Mathlib.Data.List.DropRight
import Mathlib.Data.Nat.Digits.Lemmas

/-!
# The decimals of a trimmed number

A number with fixed places ends with the last digits of its units. Of these the zeros at the end are
dropped, so there are as few decimals as the units have factors of ten.
-/

set_option autoImplicit false

namespace Reckoner.Decimal

open Binary64

/-- The characters behind the point of a written number; without a point there are none. -/
def fractionChars (text : String) : List Char :=
  (text.toList.dropWhile (· ≠ '.')).drop 1

/-- The last digits of a number, so many of them. -/
def lastDigits : Nat → Nat → List Char
  | 0, _ => []
  | places + 1, number => lastDigits places (number / 10) ++ [Nat.digitChar (number % 10)]

@[simp]
theorem length_lastDigits (places number : Nat) : (lastDigits places number).length = places := by
  induction places generalizing number with
  | zero => rfl
  | succ places inner => rw [lastDigits, List.length_append, inner, List.length_singleton]

theorem digitChar_ne_point {digit : Nat} (bound : digit < 10) : Nat.digitChar digit ≠ '.' := by
  have each : ∀ digit ∈ List.range 10, Nat.digitChar digit ≠ '.' := by decide
  exact each digit (List.mem_range.2 bound)

theorem digitChar_eq_zero_iff {digit : Nat} (bound : digit < 10) :
    Nat.digitChar digit = '0' ↔ digit = 0 := by
  have each : ∀ digit ∈ List.range 10, Nat.digitChar digit = '0' ↔ digit = 0 := by decide
  exact each digit (List.mem_range.2 bound)

theorem point_not_mem_toDigits (number : Nat) : '.' ∉ Nat.toDigits 10 number := by
  intro member
  exact absurd (Nat.isDigit_of_mem_toDigits (by decide) (by decide) member) (by decide)

theorem point_not_mem_lastDigits (places number : Nat) : '.' ∉ lastDigits places number := by
  induction places generalizing number with
  | zero => exact List.not_mem_nil
  | succ places inner =>
    rw [lastDigits, List.mem_append, List.mem_singleton]
    rintro (front | last)
    · exact inner _ front
    · exact digitChar_ne_point (Nat.mod_lt number (by decide)) last.symm

/-! ## The digits of a number with fixed places -/

theorem paddedDigits_one (number : Nat) : paddedDigits 1 number = Nat.toDigits 10 number := by
  have some : 0 < (Nat.toDigits 10 number).length := Nat.length_toDigits_pos
  simp only [paddedDigits]
  rw [Nat.sub_eq_zero_of_le some, List.replicate_zero, List.nil_append]

theorem paddedDigits_succ (width number : Nat) :
    paddedDigits (width + 2) number =
      paddedDigits (width + 1) (number / 10) ++ [Nat.digitChar (number % 10)] := by
  simp only [paddedDigits]
  rw [Nat.toDigits_eq_if (by decide)]
  split
  · rename_i single
    have quotient : number / 10 = 0 := Nat.div_eq_of_lt single
    rw [quotient, Nat.mod_eq_of_lt single, Nat.toDigits_zero]
    simp only [List.length_singleton, Nat.add_sub_cancel]
    rw [show width + 2 - 1 = width + 1 from rfl, List.replicate_succ']
  · rw [List.length_append, List.length_singleton, ← List.append_assoc]
    congr 3
    omega

/-- With fixed places, the last digits stand behind the digits of the quotient. -/
theorem paddedDigits_eq (places number : Nat) :
    paddedDigits (places + 1) number =
      Nat.toDigits 10 (number / 10 ^ places) ++ lastDigits places number := by
  induction places generalizing number with
  | zero => rw [paddedDigits_one, Nat.pow_zero, Nat.div_one, lastDigits, List.append_nil]
  | succ places inner =>
    rw [paddedDigits_succ, inner, lastDigits, Nat.div_div_eq_div_mul, ← Nat.pow_succ',
      List.append_assoc]

theorem placePoint_eq (places units : Nat) :
    placePoint places units =
      Nat.toDigits 10 (units / 10 ^ places) ++ '.' :: lastDigits places units := by
  have front : (paddedDigits (places + 1) units).length - places =
      (Nat.toDigits 10 (units / 10 ^ places)).length := by
    rw [paddedDigits_eq, List.length_append, length_lastDigits, Nat.add_sub_cancel]
  simp only [placePoint, front]
  rw [paddedDigits_eq, List.take_left, List.drop_left]

/-! ## Zeros at the end -/

theorem dropTrailing_append_cons {member : Char → Bool} (front : List Char) {stop : Char}
    (stays : member stop = false) (back : List Char) :
    dropTrailing member (front ++ stop :: back) = front ++ stop :: dropTrailing member back := by
  change List.rdropWhile member _ = front ++ stop :: List.rdropWhile member back
  induction back using List.reverseRecOn with
  | nil => exact List.rdropWhile_concat_neg member front stop (Bool.not_eq_true _ ▸ stays)
  | append_singleton back last inner =>
    rw [← List.cons_append, ← List.append_assoc, List.rdropWhile_concat, List.rdropWhile_concat,
      inner]
    split
    · rfl
    · rw [List.append_assoc, List.cons_append]

theorem dropTrailing_eq_self {member : Char → Bool} {characters : List Char}
    (none : ∀ c ∈ characters, member c = false) : dropTrailing member characters = characters := by
  refine List.rdropWhile_eq_self_iff.2 fun some => ?_
  rw [none _ (List.getLast_mem some)]
  exact Bool.false_ne_true

theorem dropWhile_point {front : List Char} (noPoint : '.' ∉ front) (back : List Char) :
    (front ++ back).dropWhile (· ≠ '.') = back.dropWhile (· ≠ '.') := by
  refine List.dropWhile_append_of_pos fun c member => ?_
  exact decide_eq_true fun same => noPoint (same ▸ member)

/-! ## Trimmed texts -/

section

variable {front fraction : List Char}

/-- If digits are left of its fraction, a number loses only the zeros behind them. -/
theorem trimFraction_of_ne_nil (noOther : '.' ∉ fraction)
    (some : dropTrailing (· == '0') fraction ≠ []) :
    trimFraction (String.ofList (front ++ '.' :: fraction)) =
      String.ofList (front ++ '.' :: dropTrailing (· == '0') fraction) := by
  have point : (front ++ '.' :: fraction).contains '.' = true := by simp
  have trimmed := @dropTrailing_append_cons (· == '0') front '.' rfl fraction
  have kept : '.' ∉ dropTrailing (· == '0') fraction :=
    fun member => noOther ((List.rdropWhile_prefix _ _).subset member)
  generalize dropTrailing (· == '0') fraction = digits at *
  cases digits using List.reverseRecOn with
  | nil => exact absurd rfl some
  | append_singleton digits last =>
    have stays : dropTrailing (· == '.') (front ++ '.' :: (digits ++ [last])) =
        front ++ '.' :: (digits ++ [last]) := by
      change List.rdropWhile _ _ = _
      rw [← List.cons_append, ← List.append_assoc]
      refine List.rdropWhile_concat_neg _ _ _ fun same => kept ?_
      simp [eq_of_beq same]
    simp only [trimFraction, String.toList_ofList, point, trimmed, stays, Bool.not_true,
      Bool.false_eq_true, if_false]
    refine if_neg fun short => ?_
    have point : '.' ∈ front ++ '.' :: (digits ++ [last]) := by simp
    rw [Bool.or_eq_true, decide_eq_true_eq, decide_eq_true_eq] at short
    rcases short with same | same
    · rw [same] at point
      exact absurd point (by decide)
    · rw [same] at point
      exact absurd point (by decide)

/-- Without such digits a number loses its point too, and a zero its sign. -/
theorem trimFraction_of_eq_nil (noPoint : '.' ∉ front)
    (none : dropTrailing (· == '0') fraction = []) :
    trimFraction (String.ofList (front ++ '.' :: fraction)) =
      if front = [] || front = ['-', '0'] then "0" else String.ofList front := by
  have point : (front ++ '.' :: fraction).contains '.' = true := by simp
  have trimmed := @dropTrailing_append_cons (· == '0') front '.' rfl fraction
  have whole : dropTrailing (· == '.') (front ++ ['.']) = front := by
    change List.rdropWhile _ _ = front
    rw [List.rdropWhile_concat_pos _ _ _ rfl]
    exact dropTrailing_eq_self fun c member => decide_eq_false fun same => noPoint (same ▸ member)
  rw [none] at trimmed
  simp only [trimFraction, String.toList_ofList, point, trimmed, whole, Bool.not_true,
    Bool.false_eq_true, if_false]

theorem trimFraction_of_no_point {characters : List Char} (noPoint : '.' ∉ characters) :
    trimFraction (String.ofList characters) = String.ofList characters := by
  simp [trimFraction, noPoint]

/-- What is behind the point after trimming is the fraction without the zeros at its end. -/
theorem fractionChars_trimFraction (noPoint : '.' ∉ front) (noOther : '.' ∉ fraction) :
    fractionChars (trimFraction (String.ofList (front ++ '.' :: fraction))) =
      dropTrailing (· == '0') fraction := by
  by_cases none : dropTrailing (· == '0') fraction = []
  · rw [trimFraction_of_eq_nil noPoint none, none]
    split
    · decide
    · rw [fractionChars, String.toList_ofList, ← List.append_nil front, dropWhile_point noPoint]
      rfl
  · rw [trimFraction_of_ne_nil noOther none, fractionChars, String.toList_ofList,
      dropWhile_point noPoint]
    rfl

end

/-- As many zeros stand at the end of the last digits as the number has factors of ten. -/
theorem length_dropTrailing_lastDigits_le_iff {places limit : Nat} (number : Nat)
    (most : limit ≤ places) :
    (dropTrailing (· == '0') (lastDigits places number)).length ≤ limit ↔
      10 ^ (places - limit) ∣ number := by
  induction places generalizing number with
  | zero => simp [dropTrailing, lastDigits, Nat.le_zero.1 most]
  | succ places inner =>
    rcases Nat.lt_or_ge places limit with all | fewer
    · have shorter := (List.rdropWhile_prefix (· == '0') (lastDigits (places + 1) number)).length_le
      rw [length_lastDigits] at shorter
      rw [Nat.sub_eq_zero_of_le all, Nat.pow_zero]
      exact iff_of_true (shorter.trans all) (one_dvd number)
    · have isZero := digitChar_eq_zero_iff (Nat.mod_lt number (by decide : 0 < 10))
      change (List.rdropWhile _ (_ ++ [_])).length ≤ limit ↔ _
      rw [List.rdropWhile_concat, Nat.sub_add_comm fewer, Nat.pow_succ']
      split
      · rename_i zero
        have ten : 10 ∣ number := Nat.dvd_of_mod_eq_zero (isZero.1 (eq_of_beq zero))
        rw [← Nat.dvd_div_iff_mul_dvd ten]
        exact inner (number / 10) fewer
      · rename_i digit
        refine iff_of_false ?_ fun divides => digit ?_
        · rw [List.length_append, length_lastDigits, List.length_singleton]
          omega
        · have ten := Nat.mod_eq_zero_of_dvd ((Nat.dvd_mul_right 10 _).trans divides)
          exact beq_of_eq (isZero.2 ten)

theorem fixed_of_isFinite {number : Float} (finite : number.isFinite = true) (places : Nat) :
    fixed places number = String.ofList ((if isNegative number then ['-'] else []) ++
      placePoint places (fixedUnits places (magnitude number))) := by
  have isModel : number.isFinite = number.toModel.unpack.isFinite := rfl
  have noNaN : number.isNaN = number.toModel.unpack.isNaN := rfl
  have noInf : number.isInf = number.toModel.unpack.isInf := rfl
  rw [isModel] at finite
  unfold fixed
  rw [noNaN, noInf]
  cases unpacked : number.toModel.unpack with
  | notANumber => rw [unpacked] at finite; cases finite
  | infinity sign => rw [unpacked] at finite; cases finite
  | zero sign => rfl
  | finite sign mantissa exponent positive => rfl

/-- A number with fixed places is displayed with no more than some decimals if its units are a
multiple of the power of ten that the other places make. -/
theorem length_fractionChars_fixed_le_iff {number : Float} (finite : number.isFinite = true)
    {places limit : Nat} (most : limit ≤ places) :
    (fractionChars (trimFraction (fixed places number))).length ≤ limit ↔
      10 ^ (places - limit) ∣ fixedUnits places (magnitude number) := by
  rw [fixed_of_isFinite finite, placePoint_eq, ← List.append_assoc, fractionChars_trimFraction]
  · exact length_dropTrailing_lastDigits_le_iff _ most
  · rw [List.mem_append, not_or]
    refine ⟨?_, point_not_mem_toDigits _⟩
    split
    · decide
    · decide
  · exact point_not_mem_lastDigits _ _

end Reckoner.Decimal
