import Reckoner.Proofs.Binary64.TiesToEven

/-!
# The double nearest to a decimal

For a decimal with an exponent far out of the range of doubles, zero or infinity is given without
the number itself. Both are what the number rounds to. Ten to a power so large is beyond all doubles;
and where the power is negative, the binary digits in front of it are counted against three for each
factor of ten, of which every one is worth more than eight.
-/

set_option autoImplicit false

namespace Reckoner.Binary64

/-- A number below half of the least positive double rounds to zero. -/
theorem nearestBits_eq_zero {number : ℚ} (nonneg : 0 ≤ number)
    (small : number < magnitudeOf 1 / 2) : nearestBits number = 0 := by
  by_contra some
  have positive : 0 < nearestBits number := Nat.pos_of_ne_zero some
  have least : magnitudeOf 1 ≤ magnitudeOf (nearestBits number) :=
    magnitudeOf_strictMono.monotone positive
  have middle := midpoint_le_of_nearer (magnitudeOf_strictMono positive)
    (nearestBits_nearest nonneg (Nat.zero_le infinityBits))
  rw [magnitudeOf_zero, zero_add] at middle
  linarith

theorem magnitudeOf_one : magnitudeOf 1 = 2 ^ lowestPlace := by
  have isPlace : place 1 = lowestPlace := by decide
  have units : significand 1 = 1 := by decide
  rw [magnitudeOf, isPlace, units, Nat.cast_one, one_mul]

/-- Digits in front of so negative an exponent are below half of the least positive double. -/
theorem decimal_lt_half {digits : ℕ} {exponent : ℤ}
    (small : (digits.log2 : ℤ) + 1080 < 3 * -exponent) :
    (digits : ℚ) * 10 ^ exponent < magnitudeOf 1 / 2 := by
  obtain ⟨places, isNegated⟩ := Int.eq_ofNat_of_zero_le (by omega : 0 ≤ -exponent)
  obtain rfl : exponent = -places := by omega
  have count : (digits : ℚ) < 2 ^ (digits.log2 + 1) := by
    exact_mod_cast (Nat.lt_log2_self : digits < 2 ^ (digits.log2 + 1))
  -- a factor of ten is worth three binary digits and more
  have eights : (2 : ℚ) ^ (3 * places) ≤ 10 ^ places := by
    rw [pow_mul]
    exact pow_le_pow_left₀ (by norm_num) (by norm_num) places
  have half : magnitudeOf 1 / 2 = 2 ^ (-1075 : ℤ) := by
    rw [magnitudeOf_one, lowestPlace, div_eq_mul_inv, ← zpow_sub_one₀ (by norm_num)]
    norm_num
  have binary : (digits.log2 + 1 : ℕ) - ((3 * places : ℕ) : ℤ) ≤ -1075 := by omega
  calc (digits : ℚ) * 10 ^ (-places : ℤ)
    _ < 2 ^ (digits.log2 + 1) * 10 ^ (-places : ℤ) := by gcongr
    _ ≤ 2 ^ (digits.log2 + 1) * (2 ^ (3 * places))⁻¹ := by
      rw [zpow_neg, zpow_natCast]
      gcongr
    _ = 2 ^ ((digits.log2 + 1 : ℕ) - ((3 * places : ℕ) : ℤ)) := by
      rw [zpow_sub₀ (by norm_num), zpow_natCast, zpow_natCast, div_eq_mul_inv]
    _ ≤ 2 ^ (-1075 : ℤ) := by
      gcongr
      norm_num
    _ = magnitudeOf 1 / 2 := half.symm

/-- Digits in front of so large an exponent are beyond the doubles. -/
theorem overflowBound_le_decimal {digits : ℕ} {exponent : ℤ} (some : digits ≠ 0)
    (large : 400 < exponent) : overflowBound ≤ digits * 10 ^ exponent := by
  have count : (1 : ℚ) ≤ digits := by exact_mod_cast Nat.one_le_iff_ne_zero.2 some
  have power : (10 : ℚ) ^ (400 : ℤ) ≤ 10 ^ exponent := by
    gcongr
    norm_num
  calc overflowBound
    _ ≤ 2 ^ 1024 := sub_le_self _ (by positivity)
    _ ≤ 2 ^ (3 * 400) := pow_le_pow_right₀ (by norm_num) (by norm_num)
    _ ≤ 10 ^ (400 : ℤ) := by
      rw [pow_mul]
      exact pow_le_pow_left₀ (by norm_num) (by norm_num) 400
    _ ≤ 10 ^ exponent := power
    _ ≤ digits * 10 ^ exponent := le_mul_of_one_le_left (by positivity) count

/-- The double of a decimal is the one nearest to it, whatever its digits and its exponent. -/
theorem ofDecimal_eq (negative : Bool) (digits : ℕ) (exponent : ℤ) :
    ofDecimal negative digits exponent = nearest negative (digits * 10 ^ exponent) := by
  have nonneg : 0 ≤ (digits : ℚ) * 10 ^ exponent := by positivity
  unfold ofDecimal
  split_ifs with zero large small
  · rw [zero, Nat.cast_zero, zero_mul, nearest, nearestBits_zero]
  · have overflow := overflowBound_le_decimal zero large
    rw [← midpoint_infinityBits, ← nearestBits_eq_infinityBits_iff nonneg] at overflow
    rw [nearest, overflow, infinity]
  · rw [nearest, nearestBits_eq_zero nonneg (decimal_lt_half small)]
  · rfl

end Reckoner.Binary64
