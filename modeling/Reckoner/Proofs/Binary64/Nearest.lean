import Reckoner.Proofs.Binary64.Exact

/-!
# The nearest double

No finite double is nearer to a number than the one that is found for it. The found one is a whole
number of units of some place, and of these the nearest. A double whose place is not finer is such a
whole number as well, and one whose place is finer lies below every number that is rounded to the
place.
-/

set_option autoImplicit false

namespace Reckoner.Binary64

/-! ## The nearest whole number -/

theorem abs_roundHalfEven_sub_le_half (number : ℚ) :
    |(roundHalfEven number : ℚ) - number| ≤ 1 / 2 := by
  have below := Rat.floor_le number
  have above := Rat.lt_floor_add_one number
  push_cast at above
  simp only [roundHalfEven]
  split
  · rw [abs_le]
    constructor <;> linarith
  · split
    · push_cast
      rw [abs_le]
      constructor <;> linarith
    · split
      · rw [abs_le]
        constructor <;> linarith
      · push_cast
        rw [abs_le]
        constructor <;> linarith

/-- No whole number is nearer. -/
theorem abs_roundHalfEven_sub_le (number : ℚ) (whole : ℤ) :
    |(roundHalfEven number : ℚ) - number| ≤ |(whole : ℚ) - number| := by
  by_cases same : roundHalfEven number = whole
  · rw [same]
  · have apart : (1 : ℚ) ≤ |(roundHalfEven number : ℚ) - whole| := by
      have distance : (1 : ℤ) ≤ |roundHalfEven number - whole| :=
        Int.one_le_abs (sub_ne_zero.2 same)
      exact_mod_cast distance
    have through := abs_sub_le (roundHalfEven number : ℚ) number whole
    have close := abs_roundHalfEven_sub_le_half number
    rw [abs_sub_comm number] at through
    linarith

theorem le_roundHalfEven {number : ℚ} {whole : ℤ} (least : (whole : ℚ) ≤ number) :
    whole ≤ roundHalfEven number := by
  by_contra below
  have close := abs_roundHalfEven_sub_le_half number
  have gap : (roundHalfEven number : ℚ) + 1 ≤ whole := by
    exact_mod_cast Int.not_le.1 below
  rw [abs_le] at close
  linarith

theorem roundHalfEven_le {number : ℚ} {whole : ℤ} (most : number ≤ whole) :
    roundHalfEven number ≤ whole := by
  by_contra above
  have close := abs_roundHalfEven_sub_le_half number
  have gap : (whole : ℚ) + 1 ≤ roundHalfEven number := by
    exact_mod_cast Int.not_le.1 above
  rw [abs_le] at close
  linarith

/-- An even number that is no farther than a half away is the one that is rounded to. -/
theorem roundHalfEven_of_even {number : ℚ} {whole : ℤ} (even : 2 ∣ whole)
    (near : |(whole : ℚ) - number| ≤ 1 / 2) : roundHalfEven number = whole := by
  have least := Rat.floor_le number
  have most := Rat.lt_floor_add_one number
  push_cast at most
  obtain ⟨lower, upper⟩ := abs_le.1 near
  have atLeast : number.floor ≤ whole := by
    have bound : (number.floor : ℚ) < whole + 1 := by linarith
    exact Int.lt_add_one_iff.1 (by exact_mod_cast bound)
  have atMost : whole ≤ number.floor + 1 := by
    have bound : (whole : ℚ) < number.floor + 1 + 1 := by linarith
    exact Int.lt_add_one_iff.1 (by exact_mod_cast bound)
  have cases : whole = number.floor ∨ whole = number.floor + 1 := by omega
  simp only [roundHalfEven]
  rcases cases with same | next
  · rw [same] at lower
    split
    · exact same.symm
    · rw [if_neg (by linarith), if_pos (by omega)]
      exact same.symm
  · rw [next] at upper
    push_cast at upper
    rw [if_neg (by linarith)]
    split
    · exact next.symm
    · rw [if_neg (by omega)]
      exact next.symm

/-! ## The binade -/

/-- A fraction is between powers of a base, two apart, that its parts are between powers of. -/
theorem fraction_between {base : ℕ} (large : 1 < base) {number : ℚ} (positive : 0 < number)
    {top bottom : ℕ} (topLow : base ^ top ≤ number.num.natAbs)
    (topHigh : number.num.natAbs < base ^ (top + 1)) (bottomLow : base ^ bottom ≤ number.den)
    (bottomHigh : number.den < base ^ (bottom + 1)) :
    (base : ℚ) ^ ((top : ℤ) - bottom - 1) ≤ number ∧
      number < (base : ℚ) ^ ((top : ℤ) - bottom + 1) := by
  have nonzero : (base : ℚ) ≠ 0 := by
    exact_mod_cast (Nat.lt_trans Nat.zero_lt_one large).ne'
  have whole : number = (number.num.natAbs : ℚ) / number.den := by
    have sign : ((number.num.natAbs : ℤ) : ℚ) = number.num := by
      rw [Int.natAbs_of_nonneg (Rat.num_pos.2 positive).le]
    rw [← Int.cast_natCast, sign, Rat.num_div_den]
  have bottomPos : (0 : ℚ) < number.den := by
    exact_mod_cast number.den_pos
  have low : (base : ℚ) ^ ((top : ℤ) - bottom - 1) = base ^ top / base ^ (bottom + 1) := by
    rw [sub_sub, zpow_sub₀ nonzero, zpow_natCast, ← Nat.cast_succ, zpow_natCast]
  have high : (base : ℚ) ^ ((top : ℤ) - bottom + 1) = base ^ (top + 1) / base ^ bottom := by
    rw [sub_add_eq_add_sub, zpow_sub₀ nonzero, ← Nat.cast_succ, zpow_natCast, zpow_natCast]
  have topLow : (base : ℚ) ^ top ≤ number.num.natAbs := by exact_mod_cast topLow
  have topHigh : (number.num.natAbs : ℚ) < base ^ (top + 1) := by exact_mod_cast topHigh
  have bottomLow : (base : ℚ) ^ bottom ≤ number.den := by exact_mod_cast bottomLow
  have bottomHigh : (number.den : ℚ) < base ^ (bottom + 1) := by exact_mod_cast bottomHigh
  rw [low, high, whole]
  have basePos : (0 : ℚ) < base := by positivity
  constructor
  · rw [div_le_div_iff₀ (by positivity) bottomPos]
    exact mul_le_mul topLow bottomHigh.le (by positivity) (by positivity)
  · rw [div_lt_div_iff₀ bottomPos (by positivity)]
    exact mul_lt_mul topHigh bottomLow (by positivity) (by positivity)

/-- The binade of a positive number is the power of two at most the number, with none between. -/
theorem binade_spec {number : ℚ} (positive : 0 < number) :
    (2 : ℚ) ^ binade number ≤ number ∧ number < (2 : ℚ) ^ (binade number + 1) := by
  have top := Rat.num_pos.2 positive
  have topNat : number.num.natAbs ≠ 0 := by omega
  obtain ⟨low, high⟩ := fraction_between (by decide) positive (Nat.log2_self_le topNat)
    Nat.lt_log2_self (Nat.log2_self_le number.den_ne_zero) Nat.lt_log2_self
  simp only [binade]
  split
  · rename_i atLeast
    exact ⟨atLeast, high⟩
  · rename_i less
    exact ⟨low, by rwa [sub_add_cancel, ← not_le]⟩

theorem binade_lt {number : ℚ} (positive : 0 < number) {exponent : ℤ}
    (below : number < (2 : ℚ) ^ exponent) : binade number < exponent :=
  (zpow_lt_zpow_iff_right₀ (by norm_num)).1 ((binade_spec positive).1.trans_lt below)

/-! ## The place and the units of the nearest double -/

/-- The exponent of the last place to which a number is rounded. -/
def finalPlace (number : ℚ) : ℤ :=
  max lowestPlace (binade number - 52)

/-- The units of the final place that a number is rounded to. -/
def finalUnits (number : ℚ) : ℕ :=
  (roundHalfEven (number / (2 : ℚ) ^ finalPlace number)).toNat

/-- The bits of the double nearest to a number if no number were too large for a double. -/
def unboundedBits (number : ℚ) : ℕ :=
  (finalPlace number - lowestPlace).toNat * hiddenBit + finalUnits number

section

variable {number : ℚ}

theorem nearestBits_of_pos (positive : 0 < number) :
    nearestBits number = min infinityBits (unboundedBits number) := by
  rw [nearestBits, if_neg (not_le.2 positive)]
  rfl

theorem nearestBits_of_finite (positive : 0 < number)
    (finite : nearestBits number < infinityBits) : nearestBits number = unboundedBits number := by
  rw [nearestBits_of_pos positive] at finite ⊢
  omega

theorem finalUnits_cast (positive : 0 < number) :
    (finalUnits number : ℤ) = roundHalfEven (number / (2 : ℚ) ^ finalPlace number) := by
  apply Int.toNat_of_nonneg
  apply le_roundHalfEven
  rw [Int.cast_zero]
  positivity

theorem lt_two_zpow_finalPlace (positive : 0 < number) :
    number < (2 * hiddenBit : ℕ) * (2 : ℚ) ^ finalPlace number := by
  have power : ((2 * hiddenBit : ℕ) : ℚ) = 2 ^ (53 : ℤ) := by
    norm_num [hiddenBit]
  calc number < (2 : ℚ) ^ (binade number + 1) := (binade_spec positive).2
    _ ≤ (2 : ℚ) ^ (53 + finalPlace number) := by
      apply zpow_le_zpow_right₀ (by norm_num)
      have atLeast := le_max_right lowestPlace (binade number - 52)
      unfold finalPlace
      omega
    _ = (2 * hiddenBit : ℕ) * (2 : ℚ) ^ finalPlace number := by
      rw [power, zpow_add₀ (by norm_num)]

theorem finalUnits_le (positive : 0 < number) : finalUnits number ≤ 2 * hiddenBit := by
  have bound : roundHalfEven (number / (2 : ℚ) ^ finalPlace number) ≤ (2 * hiddenBit : ℕ) := by
    apply roundHalfEven_le
    rw [Int.cast_natCast, div_le_iff₀ (by positivity)]
    exact (lt_two_zpow_finalPlace positive).le
  rw [← finalUnits_cast positive] at bound
  exact_mod_cast bound

/-- Above the lowest place the number has as many units as a double's significand can have. -/
theorem two_zpow_finalPlace_le (positive : 0 < number)
    (above : lowestPlace < finalPlace number) :
    (hiddenBit : ℚ) * (2 : ℚ) ^ finalPlace number ≤ number := by
  have exact : finalPlace number = binade number - 52 := by
    unfold finalPlace at above ⊢
    omega
  have power : (hiddenBit : ℚ) = 2 ^ (52 : ℤ) := by
    norm_num [hiddenBit]
  rw [power, exact, ← zpow_add₀ (by norm_num), add_sub_cancel]
  exact (binade_spec positive).1

theorem le_finalUnits (positive : 0 < number) (above : lowestPlace < finalPlace number) :
    hiddenBit ≤ finalUnits number := by
  have bound : (hiddenBit : ℤ) ≤ roundHalfEven (number / (2 : ℚ) ^ finalPlace number) := by
    apply le_roundHalfEven
    rw [Int.cast_natCast, le_div_iff₀ (by positivity)]
    exact two_zpow_finalPlace_le positive above
  rw [← finalUnits_cast positive] at bound
  exact_mod_cast bound

end

/-- The bits of so many units at a place, also when the units overflow into the next place. -/
theorem magnitudeOf_units {steps units : ℕ} (most : units ≤ 2 * hiddenBit)
    (least : 0 < steps → hiddenBit ≤ units) :
    magnitudeOf (steps * hiddenBit + units) = units * (2 : ℚ) ^ (lowestPlace + steps) := by
  have two : (2 : ℚ) ≠ 0 := by norm_num
  rcases Nat.lt_or_ge units hiddenBit with small | large
  · have none : steps = 0 := by
      by_contra some
      exact absurd (least (Nat.pos_of_ne_zero some)) (Nat.not_le.2 small)
    rw [none, Nat.zero_mul, Nat.zero_add, magnitudeOf, significand, if_pos small, place,
      if_pos small, Nat.cast_zero, add_zero]
  · have noSmall : ¬ steps * hiddenBit + units < hiddenBit := by
      simp only [hiddenBit] at large ⊢
      omega
    rw [magnitudeOf, significand, if_neg noSmall, place, if_neg noSmall]
    rcases Nat.lt_or_ge units (2 * hiddenBit) with normal | full
    · have isUnits : hiddenBit + (steps * hiddenBit + units) % hiddenBit = units := by
        simp only [hiddenBit] at large normal ⊢
        omega
      have isPlace : (steps * hiddenBit + units) / hiddenBit - 1 = steps := by
        simp only [hiddenBit] at large normal ⊢
        omega
      rw [isUnits, isPlace]
    · have isFull : units = 2 * hiddenBit := Nat.le_antisymm most full
      subst isFull
      have isUnits : hiddenBit + (steps * hiddenBit + 2 * hiddenBit) % hiddenBit = hiddenBit := by
        simp only [hiddenBit]
        omega
      have isPlace : (steps * hiddenBit + 2 * hiddenBit) / hiddenBit - 1 = steps + 1 := by
        simp only [hiddenBit]
        omega
      rw [isUnits, isPlace]
      push_cast
      rw [← add_assoc, zpow_add_one₀ two]
      ring

theorem magnitudeOf_unboundedBits {number : ℚ} (positive : 0 < number) :
    magnitudeOf (unboundedBits number) = finalUnits number * (2 : ℚ) ^ finalPlace number := by
  rw [unboundedBits, magnitudeOf_units (finalUnits_le positive)]
  · have atLeast := le_max_left lowestPlace (binade number - 52)
    rw [Int.toNat_of_nonneg (by unfold finalPlace; omega), add_sub_cancel]
  · intro above
    exact le_finalUnits positive (by omega)

theorem magnitudeOf_nearestBits {number : ℚ} (positive : 0 < number)
    (finite : nearestBits number < infinityBits) :
    magnitudeOf (nearestBits number) = finalUnits number * (2 : ℚ) ^ finalPlace number := by
  rw [nearestBits_of_finite positive finite, magnitudeOf_unboundedBits positive]

/-- The double that is found for a number from a power of two on is not below the power. -/
theorem two_zpow_binade_le {number : ℚ} (positive : 0 < number)
    (finite : nearestBits number < infinityBits) (above : lowestPlace < finalPlace number) :
    (2 : ℚ) ^ binade number ≤ magnitudeOf (nearestBits number) := by
  have units : (hiddenBit : ℚ) ≤ finalUnits number := by exact_mod_cast le_finalUnits positive above
  have exact : binade number = 52 + finalPlace number := by
    unfold finalPlace at above ⊢
    omega
  rw [magnitudeOf_nearestBits positive finite, exact, zpow_add₀ (by norm_num)]
  have power : (hiddenBit : ℚ) = 2 ^ (52 : ℤ) := by norm_num [hiddenBit]
  rw [← power]
  exact mul_le_mul_of_nonneg_right units (by positivity)

/-- Numbers well below the largest double have a finite double nearest to them. -/
theorem nearestBits_lt {number : ℚ} {exponent : ℤ} (below : number < (2 : ℚ) ^ exponent)
    (small : exponent ≤ 1000) : nearestBits number < infinityBits := by
  rcases le_or_gt number 0 with zero | positive
  · rw [nearestBits, if_pos zero]
    decide
  · have most := finalUnits_le positive
    have power := binade_lt positive below
    rw [nearestBits_of_pos positive]
    apply lt_of_le_of_lt (min_le_right _ _)
    have steps : (finalPlace number - lowestPlace).toNat ≤ 2021 := by
      simp only [finalPlace, lowestPlace]
      omega
    simp only [unboundedBits, hiddenBit, infinityBits] at most ⊢
    omega

/-! ## Nearness -/

/-- A double whose place is not finer than the final one is a whole number of final units. -/
theorem magnitudeOf_of_le_place {bits : ℕ} {last : ℤ} (coarse : last ≤ place bits) :
    ∃ whole : ℤ, magnitudeOf bits = whole * (2 : ℚ) ^ last := by
  obtain ⟨shift, isPlace⟩ := Int.le.dest coarse
  refine ⟨significand bits * 2 ^ shift, ?_⟩
  rw [magnitudeOf, ← isPlace, zpow_add₀ (by norm_num), zpow_natCast]
  push_cast
  ring

/-- A double whose place is finer is below the least number with a significand's units. -/
theorem magnitudeOf_of_place_lt {bits : ℕ} {last : ℤ} (fine : place bits < last) :
    magnitudeOf bits < hiddenBit * (2 : ℚ) ^ last := by
  have most : (significand bits : ℚ) < 2 * hiddenBit := by
    exact_mod_cast significand_lt bits
  calc magnitudeOf bits = significand bits * (2 : ℚ) ^ place bits := rfl
    _ < 2 * hiddenBit * (2 : ℚ) ^ place bits := by gcongr
    _ ≤ 2 * hiddenBit * (2 : ℚ) ^ (last - 1) := by
      gcongr
      · norm_num
      · omega
    _ = hiddenBit * (2 : ℚ) ^ last := by
      rw [zpow_sub_one₀ (by norm_num)]
      ring

/-- A distance from a number in its final units. -/
theorem abs_units_sub (number count : ℚ) :
    |count * 2 ^ finalPlace number - number| =
      |count - number / 2 ^ finalPlace number| * 2 ^ finalPlace number := by
  have unit : (0 : ℚ) < 2 ^ finalPlace number := by positivity
  rw [← abs_of_pos unit, ← abs_mul, sub_mul, abs_of_pos unit, div_mul_cancel₀ _ unit.ne']

theorem finalUnits_eq_roundHalfEven {number : ℚ} (positive : 0 < number) :
    (finalUnits number : ℚ) = roundHalfEven (number / 2 ^ finalPlace number) := by
  exact_mod_cast congrArg (Int.cast : ℤ → ℚ) (finalUnits_cast positive)

/-- No whole number of final units is nearer than the one that is found. -/
theorem abs_finalUnits_sub_le {number : ℚ} (positive : 0 < number) (whole : ℤ) :
    |finalUnits number * (2 : ℚ) ^ finalPlace number - number| ≤
      |whole * (2 : ℚ) ^ finalPlace number - number| := by
  have unit : (0 : ℚ) < 2 ^ finalPlace number := by positivity
  rw [abs_units_sub, abs_units_sub, finalUnits_eq_roundHalfEven positive]
  exact mul_le_mul_of_nonneg_right (abs_roundHalfEven_sub_le _ whole) unit.le

/-- The double that is found for a number is within half a unit of its last place. -/
theorem abs_magnitudeOf_nearestBits_sub_le_half {number : ℚ} (positive : 0 < number)
    (finite : nearestBits number < infinityBits) :
    |magnitudeOf (nearestBits number) - number| ≤ 2 ^ finalPlace number / 2 := by
  have close := abs_roundHalfEven_sub_le_half (number / 2 ^ finalPlace number)
  rw [magnitudeOf_nearestBits positive finite, abs_units_sub, finalUnits_eq_roundHalfEven positive]
  calc |roundHalfEven (number / 2 ^ finalPlace number) - number / 2 ^ finalPlace number| *
        2 ^ finalPlace number
    _ ≤ 1 / 2 * 2 ^ finalPlace number := by gcongr
    _ = 2 ^ finalPlace number / 2 := by ring

/-- A double whose place is finer than a number's final one is farther from the number than some
whole number of final units: the least one with a significand's units lies between the two. -/
theorem abs_finalUnits_sub_lt {number : ℚ} (positive : 0 < number) {bits : ℕ}
    (fine : place bits < finalPlace number) :
    |finalUnits number * (2 : ℚ) ^ finalPlace number - number| < |magnitudeOf bits - number| := by
  have above : lowestPlace < finalPlace number := (lowestPlace_le_place bits).trans_lt fine
  have least := two_zpow_finalPlace_le positive above
  have lower := magnitudeOf_of_place_lt fine
  calc |finalUnits number * (2 : ℚ) ^ finalPlace number - number|
    _ ≤ |(hiddenBit : ℤ) * (2 : ℚ) ^ finalPlace number - number| :=
      abs_finalUnits_sub_le positive hiddenBit
    _ = number - hiddenBit * (2 : ℚ) ^ finalPlace number := by
      rw [Int.cast_natCast, abs_sub_comm, abs_of_nonneg (sub_nonneg.2 least)]
    _ < number - magnitudeOf bits := by linarith
    _ = |magnitudeOf bits - number| := by
      rw [abs_sub_comm, abs_of_nonneg (by linarith)]

theorem abs_magnitudeOf_unboundedBits_sub_le {number : ℚ} (positive : 0 < number) (bits : ℕ) :
    |magnitudeOf (unboundedBits number) - number| ≤ |magnitudeOf bits - number| := by
  rw [magnitudeOf_unboundedBits positive]
  rcases le_or_gt (finalPlace number) (place bits) with coarse | fine
  · obtain ⟨whole, same⟩ := magnitudeOf_of_le_place coarse
    rw [same]
    exact abs_finalUnits_sub_le positive whole
  · exact (abs_finalUnits_sub_lt positive fine).le

/-- No double is nearer to a positive number than the one that is found for it. -/
theorem abs_magnitudeOf_nearestBits_sub_le {number : ℚ} (positive : 0 < number)
    (finite : nearestBits number < infinityBits) (bits : ℕ) :
    |magnitudeOf (nearestBits number) - number| ≤ |magnitudeOf bits - number| := by
  rw [nearestBits_of_finite positive finite]
  exact abs_magnitudeOf_unboundedBits_sub_le positive bits

/-- A whole number of up to 53 binary digits is the magnitude of the double found for it. -/
theorem magnitudeOf_nearestBits_natCast {whole : ℕ} (positive : 0 < whole)
    (most : whole < 2 * hiddenBit) : magnitudeOf (nearestBits whole) = whole := by
  have positiveCast : (0 : ℚ) < whole := by exact_mod_cast positive
  have below : (whole : ℚ) < 2 ^ (53 : ℤ) := by
    have bound : (whole : ℚ) < (2 * hiddenBit : ℕ) := by exact_mod_cast most
    norm_num [hiddenBit] at bound ⊢
    exact bound
  have finite := nearestBits_lt below (by decide)
  have fine : finalPlace whole ≤ 0 := by
    have power := binade_lt positiveCast below
    simp only [finalPlace, lowestPlace]
    omega
  obtain ⟨shift, isPlace⟩ := Int.le.dest fine
  have close := abs_finalUnits_sub_le positiveCast (whole * 2 ^ shift)
  have same : ((whole * 2 ^ shift : ℤ) : ℚ) * 2 ^ finalPlace whole = whole := by
    push_cast
    rw [← zpow_natCast, mul_assoc, ← zpow_add₀ (by norm_num), add_comm, isPlace, zpow_zero, mul_one]
  rw [same, sub_self, abs_zero] at close
  rw [magnitudeOf_nearestBits positiveCast finite]
  exact sub_eq_zero.1 (abs_nonpos_iff.1 close)

/-! ## The nearest double -/

theorem nearestBits_le (number : ℚ) : nearestBits number ≤ infinityBits := by
  unfold nearestBits
  split
  · decide
  · exact min_le_left _ _

theorem isNegative_nearest (negative : Bool) (number : ℚ) :
    isNegative (nearest negative number) = negative :=
  isNegative_ofMagnitudeBits negative (nearestBits_le number)

theorem magnitudeBits_nearest (negative : Bool) (number : ℚ) :
    magnitudeBits (nearest negative number) = nearestBits number :=
  magnitudeBits_ofMagnitudeBits negative (nearestBits_le number)

end Reckoner.Binary64
