import Reckoner.Decimal.Rounding
import Reckoner.Proofs.Binary64.Bits

/-!
# The exact decimal form of a double

A finite double is a whole number or a fraction whose denominator is a power of two, so it has an
exact decimal form. It takes as many decimal places as the power has factors, and never more than
767 digits: the most are those of the largest fraction with 1074 places.
-/

set_option autoImplicit false

namespace Reckoner

namespace Binary64

theorem significand_lt (bits : Nat) : significand bits < 2 * hiddenBit := by
  by_cases small : bits < hiddenBit
  · rw [significand, if_pos small]
    omega
  · rw [significand, if_neg small]
    have rest : bits % hiddenBit < hiddenBit := Nat.mod_lt _ (by decide)
    omega

theorem lowestPlace_le_place (bits : Nat) : lowestPlace ≤ place bits := by
  by_cases small : bits < hiddenBit
  · rw [place, if_pos small]
  · rw [place, if_neg small]
    omega

theorem place_le {bits : Nat} (finite : bits < infinityBits) : place bits ≤ 971 := by
  simp only [infinityBits] at finite
  by_cases small : bits < hiddenBit
  · rw [place, if_pos small]
    decide
  · rw [place, if_neg small]
    simp only [lowestPlace, hiddenBit]
    omega

theorem magnitude_nonneg (number : Float) : 0 ≤ magnitude number := by
  unfold magnitude magnitudeOf
  positivity

/-- A magnitude is a whole number or a fraction with a power of two for its denominator. -/
theorem magnitudeOf_cases {bits : Nat} (finite : bits < infinityBits) :
    (∃ whole : Nat, magnitudeOf bits = whole ∧ whole < 2 ^ 1024) ∨
      ∃ count places : Nat, magnitudeOf bits = (count : ℚ) / (2 ^ places : ℕ) ∧ count < 2 ^ 53 ∧
        places ≤ 1074 := by
  have most := significand_lt bits
  have least := lowestPlace_le_place bits
  have greatest := place_le finite
  simp only [hiddenBit] at most
  unfold magnitudeOf
  generalize significand bits = count at *
  generalize place bits = power at *
  rcases Int.lt_or_le power 0 with below | above
  · obtain ⟨places, rfl⟩ := Int.exists_eq_neg_ofNat (Int.le_of_lt below)
    refine .inr ⟨count, places, ?_, by omega, ?_⟩
    · rw [zpow_neg, zpow_natCast, Nat.cast_pow, Nat.cast_ofNat, div_eq_mul_inv]
    · simp only [lowestPlace] at least
      omega
  · obtain ⟨shift, rfl⟩ := Int.eq_ofNat_of_zero_le above
    refine .inl ⟨count * 2 ^ shift, ?_, ?_⟩
    · rw [zpow_natCast, Nat.cast_mul, Nat.cast_pow, Nat.cast_ofNat]
    · have below : count * 2 ^ shift < 2 ^ (53 + shift) := by
        rw [pow_add]
        exact Nat.mul_lt_mul_of_pos_right (by omega) (Nat.two_pow_pos shift)
      exact below.trans_le (pow_le_pow_right₀ (by decide) (by omega))

end Binary64

namespace Decimal

open Binary64

variable {number : Float}

theorem abs_value (number : Float) : |value number| = magnitude number := by
  unfold value
  split
  · rw [abs_neg, abs_of_nonneg (magnitude_nonneg number)]
  · exact abs_of_nonneg (magnitude_nonneg number)

/-- Reducing a fraction enlarges neither its numerator nor its denominator. -/
theorem reduced_fraction {value : ℚ} {count bottom : ℕ} (same : value = (count : ℚ) / bottom) :
    value.den ∣ bottom ∧ value.num.natAbs ≤ count := by
  have divInt : value = Rat.divInt count bottom := by
    rw [Rat.divInt_eq_div, same, Int.cast_natCast, Int.cast_natCast]
  constructor
  · have divides := Rat.den_dvd count bottom
    rw [← divInt] at divides
    exact Int.natCast_dvd_natCast.1 divides
  · rcases Nat.eq_zero_or_pos count with zero | positive
    · simp [same, zero]
    · rcases Nat.eq_zero_or_pos bottom with none | some
      · simp [same, none]
      · have divides := Rat.num_dvd count (Int.natCast_ne_zero.2 (Nat.ne_of_gt some))
        rw [← divInt] at divides
        exact Nat.le_of_dvd positive (Int.natAbs_dvd_natAbs.2 divides)

theorem den_magnitude (finite : number.isFinite = true) :
    (magnitude number).den = 2 ^ exactPlaces number := by
  have isPower : ∃ places, (magnitude number).den = 2 ^ places := by
    rcases magnitudeOf_cases ((isFinite_iff number).1 finite) with
      ⟨whole, same, -⟩ | ⟨count, places, same, -⟩
    · refine ⟨0, ?_⟩
      rw [magnitude, same, Rat.den_natCast]
      rfl
    · obtain ⟨exponent, -, power⟩ :=
        (Nat.dvd_prime_pow Nat.prime_two).1 (reduced_fraction same).1
      exact ⟨exponent, power⟩
  obtain ⟨places, power⟩ := isPower
  rw [exactPlaces, power, Nat.log2_two_pow]

theorem magnitude_eq_div (finite : number.isFinite = true) :
    magnitude number = (magnitude number).num / 2 ^ exactPlaces number := by
  have reduced := Rat.num_div_den (magnitude number)
  rw [den_magnitude finite, Nat.cast_pow, Nat.cast_ofNat] at reduced
  exact reduced.symm

theorem exactPlaces_eq {places : ℕ} (power : (magnitude number).den = 2 ^ places) :
    exactPlaces number = places := by
  rw [exactPlaces, power, Nat.log2_two_pow]

theorem exactPlaces_le (finite : number.isFinite = true) : exactPlaces number ≤ 1074 := by
  have power := den_magnitude finite
  rcases magnitudeOf_cases ((isFinite_iff number).1 finite) with
    ⟨whole, same, -⟩ | ⟨count, places, same, -, few⟩
  · have one : (magnitude number).den = 2 ^ 0 := by
      rw [magnitude, same, Rat.den_natCast, Nat.pow_zero]
    rw [exactPlaces_eq one]
    exact Nat.zero_le _
  · have below := Nat.le_of_dvd (Nat.two_pow_pos places) (reduced_fraction same).1
    rw [← magnitude, power] at below
    exact Nat.le_trans ((Nat.pow_le_pow_iff_right (by decide)).1 below) few

theorem length_coefficient_le {count places : ℕ} (most : count < 2 ^ 53) (few : places ≤ 1074) :
    (Nat.toDigits 10 (count * Nat.pow 5 places)).length ≤ 767 := by
  have below (bound : ℕ) (le : places ≤ bound) : count * Nat.pow 5 places < 2 ^ 53 * 5 ^ bound :=
    Nat.mul_lt_mul_of_lt_of_le most (Nat.pow_le_pow_right (by decide) le) (Nat.pow_pos (by decide))
  rw [Nat.length_toDigits_le_iff (by decide) (by decide)]
  exact Nat.lt_trans (below 1074 few) (by decide +kernel)

/-- No finite double has more than 767 digits. -/
theorem exactDigits_le (finite : number.isFinite = true) : exactDigits number ≤ 767 := by
  unfold exactDigits
  rcases magnitudeOf_cases ((isFinite_iff number).1 finite) with
    ⟨whole, same, most⟩ | ⟨count, places, same, most, -⟩
  · have one : (magnitude number).den = 2 ^ 0 := by
      rw [magnitude, same, Rat.den_natCast, Nat.pow_zero]
    have exact : (magnitude number).num.natAbs = whole := by
      rw [magnitude, same, Rat.num_natCast, Int.natAbs_natCast]
    rw [exactPlaces_eq one, exact, Nat.pow_eq, Nat.pow_zero, Nat.mul_one,
      Nat.length_toDigits_le_iff (by decide) (by decide)]
    exact Nat.lt_trans most (by decide +kernel)
  · have fewer := (reduced_fraction same).2
    exact length_coefficient_le (Nat.lt_of_le_of_lt fewer most) (exactPlaces_le finite)

end Decimal

end Reckoner
