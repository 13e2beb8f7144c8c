import Reckoner.Decimal.Shortest
import Reckoner.Proofs.Binary64.Nearest

/-!
# The numbers that round to a double

The numbers between the midpoints to the two neighbours of a double round to it, and so do the
midpoints themselves if the double's last bit is clear. The distance to the nearer midpoint is more
than the number divided by the power of two with exponent 54.
-/

set_option autoImplicit false

namespace Reckoner

namespace Binary64

/-! ## Bits, units and places -/

/-- The steps from the lowest place up to that of some bits. -/
def stepsOf (bits : ℕ) : ℕ :=
  (place bits - lowestPlace).toNat

theorem lowestPlace_add_stepsOf (bits : ℕ) : lowestPlace + stepsOf bits = place bits := by
  have least := lowestPlace_le_place bits
  unfold stepsOf
  omega

/-- Above the lowest place the units fill a significand. -/
theorem hiddenBit_le_significand {bits : ℕ} (above : 0 < stepsOf bits) :
    hiddenBit ≤ significand bits := by
  have large : ¬ bits < hiddenBit := by
    intro small
    simp [stepsOf, place, if_pos small] at above
  rw [significand, if_neg large]
  omega

theorem bits_eq (bits : ℕ) : stepsOf bits * hiddenBit + significand bits = bits := by
  by_cases small : bits < hiddenBit
  · simp [stepsOf, place, significand, if_pos small]
  · have steps : stepsOf bits = bits / hiddenBit - 1 := by
      rw [stepsOf, place, if_neg small, add_sub_cancel_left, Int.toNat_natCast]
    rw [steps, significand, if_neg small]
    simp only [hiddenBit] at small ⊢
    omega

theorem significand_mod_two (bits : ℕ) : significand bits % 2 = bits % 2 := by
  have whole := bits_eq bits
  simp only [hiddenBit] at whole
  omega

theorem magnitudeOf_succ (bits : ℕ) :
    magnitudeOf (bits + 1) = (significand bits + 1) * (2 : ℚ) ^ place bits := by
  have most := significand_lt bits
  have next : bits + 1 = stepsOf bits * hiddenBit + (significand bits + 1) := by
    rw [← Nat.add_assoc, bits_eq]
  rw [next, magnitudeOf_units most, lowestPlace_add_stepsOf]
  · push_cast
    rfl
  · intro above
    exact (hiddenBit_le_significand above).trans (Nat.le_succ _)

/-- The double below has the same place, unless the significand is the least at a place above the
lowest. -/
theorem magnitudeOf_pred {bits : ℕ} (positive : 0 < bits)
    (inside : hiddenBit < significand bits ∨ stepsOf bits = 0) :
    magnitudeOf (bits - 1) = (significand bits - 1) * (2 : ℚ) ^ place bits := by
  have some := significand_pos.2 positive
  have most := significand_lt bits
  have before : bits - 1 = stepsOf bits * hiddenBit + (significand bits - 1) := by
    have whole := bits_eq bits
    omega
  rw [before, magnitudeOf_units (by omega), lowestPlace_add_stepsOf]
  · rw [Nat.cast_sub some, Nat.cast_one]
  · omega

theorem magnitudeOf_pred_of_least {bits : ℕ} (least : significand bits = hiddenBit)
    (above : 0 < stepsOf bits) :
    magnitudeOf (bits - 1) = (2 * hiddenBit - 1 : ℕ) * (2 : ℚ) ^ (place bits - 1) := by
  have before : bits - 1 = (stepsOf bits - 1) * hiddenBit + (2 * hiddenBit - 1) := by
    have whole := bits_eq bits
    rw [least] at whole
    simp only [hiddenBit] at whole ⊢
    omega
  have same : lowestPlace + (stepsOf bits - 1 : ℕ) = place bits - 1 := by
    have whole := lowestPlace_add_stepsOf bits
    omega
  rw [before, magnitudeOf_units (by omega), same]
  intro _
  simp only [hiddenBit]
  omega

/-! ## Rounding to units -/

theorem roundHalfEven_of_near {number : ℚ} {whole : ℤ} (near : |(whole : ℚ) - number| < 1 / 2) :
    roundHalfEven number = whole := by
  have close := abs_roundHalfEven_sub_le_half number
  have apart : |(roundHalfEven number : ℚ) - whole| < 1 := by
    calc |(roundHalfEven number : ℚ) - whole|
      _ = |((roundHalfEven number : ℚ) - number) - (whole - number)| := by ring_nf
      _ ≤ |(roundHalfEven number : ℚ) - number| + |(whole : ℚ) - number| := abs_sub _ _
      _ < 1 := by linarith
  have cast : |roundHalfEven number - whole| < 1 := by exact_mod_cast apart
  exact sub_eq_zero.1 (Int.abs_lt_one_iff.1 cast)

/-- The final place of a number that fills the units of a place, or that is below those of the lowest
one. -/
theorem finalPlace_eq {number : ℚ} {last : ℤ} (positive : 0 < number) (least : lowestPlace ≤ last)
    (fills : hiddenBit * (2 : ℚ) ^ last ≤ number ∨ last = lowestPlace)
    (fits : number < (2 * hiddenBit : ℕ) * (2 : ℚ) ^ last) : finalPlace number = last := by
  obtain ⟨lower, upper⟩ := binade_spec positive
  have power : ((2 * hiddenBit : ℕ) : ℚ) * 2 ^ last = 2 ^ (53 + last) := by
    rw [zpow_add₀ (by norm_num)]
    norm_num [hiddenBit]
  have below : binade number < 53 + last :=
    binade_lt positive (by rwa [power] at fits)
  obtain fills | rfl := fills
  · have power : (hiddenBit : ℚ) * 2 ^ last = 2 ^ (52 + last) := by
      rw [zpow_add₀ (by norm_num)]
      norm_num [hiddenBit]
    rw [power] at fills
    have above : 52 + last < binade number + 1 :=
      (zpow_lt_zpow_iff_right₀ (by norm_num)).1 (fills.trans_lt upper)
    unfold finalPlace
    omega
  · unfold finalPlace
    omega

/-- A number rounds to a double that has so many units of its final place, if it is near that many. -/
theorem nearestBits_eq {number : ℚ} {steps units : ℕ} (positive : 0 < number)
    (finite : steps * hiddenBit + units ≤ infinityBits)
    (isPlace : finalPlace number = lowestPlace + steps)
    (near : |(units : ℚ) - number / 2 ^ finalPlace number| < 1 / 2 ∨
      2 ∣ units ∧ |(units : ℚ) - number / 2 ^ finalPlace number| ≤ 1 / 2) :
    nearestBits number = steps * hiddenBit + units := by
  have isUnits : finalUnits number = units := by
    have rounded : roundHalfEven (number / 2 ^ finalPlace number) = units := by
      obtain near | ⟨even, near⟩ := near
      · exact roundHalfEven_of_near (by exact_mod_cast near)
      · exact roundHalfEven_of_even (by exact_mod_cast even) (by exact_mod_cast near)
    have cast := finalUnits_cast positive
    rw [rounded] at cast
    exact_mod_cast cast
  rw [nearestBits_of_pos positive, unboundedBits, isUnits, isPlace, add_sub_cancel_left, Int.toNat_natCast]
  exact min_eq_right finite

/-! ## Midpoints -/

/-- The midpoint between a double and the one below it. -/
def lower (bits : ℕ) : ℚ :=
  (magnitudeOf (bits - 1) + magnitudeOf bits) / 2

/-- The midpoint between a double and the one above it. -/
def upper (bits : ℕ) : ℚ :=
  (magnitudeOf bits + magnitudeOf (bits + 1)) / 2

variable {bits : ℕ} {number : ℚ}

theorem upper_eq (bits : ℕ) : upper bits = (significand bits + 1 / 2) * (2 : ℚ) ^ place bits := by
  rw [upper, magnitudeOf_succ, magnitudeOf]
  ring

theorem lower_eq (positive : 0 < bits)
    (inside : hiddenBit < significand bits ∨ stepsOf bits = 0) :
    lower bits = (significand bits - 1 / 2) * (2 : ℚ) ^ place bits := by
  rw [lower, magnitudeOf_pred positive inside, magnitudeOf]
  ring

theorem lower_eq_of_least (least : significand bits = hiddenBit) (above : 0 < stepsOf bits) :
    lower bits = ((2 * hiddenBit : ℕ) - 1 / 2) * (2 : ℚ) ^ (place bits - 1) := by
  have place : (2 : ℚ) ^ place bits = 2 * 2 ^ (place bits - 1) := by
    rw [zpow_sub_one₀ (by norm_num)]
    ring
  rw [lower, magnitudeOf_pred_of_least least above, magnitudeOf, least, place,
    Nat.cast_sub (by decide)]
  push_cast
  ring

theorem magnitudeOf_pos (positive : 0 < bits) : 0 < magnitudeOf bits := by
  have some : (0 : ℚ) < significand bits := by exact_mod_cast significand_pos.2 positive
  unfold magnitudeOf
  positivity

theorem lower_pos (positive : 0 < bits) : 0 < lower bits := by
  have before : 0 ≤ magnitudeOf (bits - 1) := by
    unfold magnitudeOf
    positivity
  have some := magnitudeOf_pos positive
  unfold lower
  linarith

/-- A double's interval is below the numbers with a binary digit more. -/
theorem upper_lt (bits : ℕ) : upper bits < (2 * hiddenBit : ℕ) * (2 : ℚ) ^ place bits := by
  have most : (significand bits : ℚ) + 1 ≤ (2 * hiddenBit : ℕ) := by
    exact_mod_cast significand_lt bits
  rw [upper_eq]
  apply mul_lt_mul_of_pos_right _ (by positivity)
  linarith

/-- A number in a double's interval that fills the units of the double's place is within half such a
unit of the double. -/
theorem nearestBits_of_fills (finite : bits < infinityBits) (isPositive : 0 < number)
    (fills : hiddenBit * (2 : ℚ) ^ place bits ≤ number ∨ place bits = lowestPlace)
    (within : (significand bits - 1 / 2) * (2 : ℚ) ^ place bits < number ∧ number < upper bits ∨
      2 ∣ bits ∧ (significand bits - 1 / 2) * (2 : ℚ) ^ place bits ≤ number ∧
        number ≤ upper bits) : nearestBits number = bits := by
  have unit : (0 : ℚ) < 2 ^ place bits := by positivity
  have most : number ≤ upper bits := by
    obtain ⟨-, above⟩ | ⟨-, -, above⟩ := within
    · exact above.le
    · exact above
  have isPlace := finalPlace_eq isPositive (lowestPlace_le_place bits) fills
    (most.trans_lt (upper_lt bits))
  have same := bits_eq bits
  conv_rhs => rw [← same]
  apply nearestBits_eq isPositive (same.trans_le finite.le)
    (isPlace.trans (lowestPlace_add_stepsOf bits).symm)
  rw [isPlace, upper_eq] at *
  obtain ⟨below, above⟩ | ⟨even, below, above⟩ := within
  · left
    rw [abs_sub_lt_iff]
    rw [← lt_div_iff₀ unit] at below
    rw [← div_lt_iff₀ unit] at above
    constructor <;> linarith
  · right
    refine ⟨?_, ?_⟩
    · have parity := significand_mod_two bits
      omega
    · rw [abs_sub_le_iff]
      rw [← le_div_iff₀ unit] at below
      rw [← div_le_iff₀ unit] at above
      constructor <;> linarith

/-- A number below a power of two, and in the interval of the double that is the power, has twice as
many units of the place below. -/
theorem nearestBits_of_below (finite : bits < infinityBits) (least : significand bits = hiddenBit)
    (above : 0 < stepsOf bits) (within : lower bits ≤ number)
    (below : number < hiddenBit * (2 : ℚ) ^ place bits) : nearestBits number = bits := by
  have unit : (0 : ℚ) < 2 ^ (place bits - 1) := by positivity
  have double : (hiddenBit : ℚ) * 2 ^ place bits = (2 * hiddenBit : ℕ) * 2 ^ (place bits - 1) := by
    rw [zpow_sub_one₀ (by norm_num)]
    push_cast
    ring
  rw [double] at below
  rw [lower_eq_of_least least above] at within
  have fills : hiddenBit * (2 : ℚ) ^ (place bits - 1) ≤ number := by
    refine le_trans ?_ within
    apply mul_le_mul_of_nonneg_right _ unit.le
    norm_num [hiddenBit]
  have some : (0 : ℚ) < hiddenBit := by norm_num [hiddenBit]
  have isPositive : 0 < number := (mul_pos some unit).trans_le fills
  have steps := lowestPlace_add_stepsOf bits
  have isPlace := finalPlace_eq isPositive (by omega) (.inl fills) below
  have same : (stepsOf bits - 1) * hiddenBit + 2 * hiddenBit = bits := by
    have whole := bits_eq bits
    rw [least] at whole
    obtain ⟨fewer, isFewer⟩ := Nat.exists_eq_succ_of_ne_zero above.ne'
    rw [isFewer, Nat.succ_mul] at whole
    rw [isFewer, Nat.succ_sub_one]
    omega
  conv_rhs => rw [← same]
  apply nearestBits_eq isPositive (same.trans_le finite.le)
  · rw [isPlace]
    omega
  · right
    refine ⟨Nat.dvd_mul_right 2 hiddenBit, ?_⟩
    rw [isPlace, abs_sub_le_iff]
    rw [← le_div_iff₀ unit] at within
    rw [← div_lt_iff₀ unit] at below
    constructor <;> linarith

/-- What is between the midpoints around a double rounds to it, and a midpoint does if the last bit
is clear. -/
theorem nearestBits_of_between (positive : 0 < bits) (finite : bits < infinityBits)
    (within : lower bits < number ∧ number < upper bits ∨
      2 ∣ bits ∧ lower bits ≤ number ∧ number ≤ upper bits) : nearestBits number = bits := by
  have least : lower bits ≤ number := by
    obtain ⟨below, -⟩ | ⟨-, below, -⟩ := within
    · exact below.le
    · exact below
  have isPositive := (lower_pos positive).trans_le least
  by_cases inside : hiddenBit < significand bits ∨ stepsOf bits = 0
  · rw [lower_eq positive inside] at within least
    refine nearestBits_of_fills finite isPositive ?_ within
    obtain more | none := inside
    · left
      refine le_trans ?_ least
      have more : (hiddenBit : ℚ) + 1 ≤ significand bits := by exact_mod_cast more
      apply mul_le_mul_of_nonneg_right _ (by positivity)
      linarith
    · right
      rw [← lowestPlace_add_stepsOf, none, Nat.cast_zero, add_zero]
  · have above : 0 < stepsOf bits := by omega
    have isLeast : significand bits = hiddenBit := by
      have some := hiddenBit_le_significand above
      omega
    rcases lt_or_ge number (hiddenBit * (2 : ℚ) ^ place bits) with below | fills
    · exact nearestBits_of_below finite isLeast above least below
    · -- the interval reaches half a unit down only of the place below, so no more is needed here
      have even : 2 ∣ bits := by
        have parity := significand_mod_two bits
        rw [isLeast] at parity
        exact Nat.dvd_of_mod_eq_zero parity.symm
      refine nearestBits_of_fills finite isPositive (.inl fills) (.inr ⟨even, ?_, ?_⟩)
      · refine le_trans ?_ fills
        rw [isLeast]
        apply mul_le_mul_of_nonneg_right _ (by positivity)
        linarith
      · obtain ⟨-, above⟩ | ⟨-, -, above⟩ := within
        · exact above.le
        · exact above

/-- What is nearer to a double than a bound is between the midpoints around it, if the bound is
within half a unit, and within a quarter where the double below has the place below. -/
theorem between_of_near {gap : ℚ} (positive : 0 < bits) (half : gap ≤ 2 ^ place bits / 2)
    (quarter : significand bits = hiddenBit → gap ≤ 2 ^ (place bits - 1) / 2)
    (near : |number - magnitudeOf bits| < gap) : lower bits < number ∧ number < upper bits := by
  obtain ⟨above, below⟩ := abs_sub_lt_iff.1 near
  constructor
  · by_cases inside : hiddenBit < significand bits ∨ stepsOf bits = 0
    · rw [lower_eq positive inside, sub_mul]
      simp only [magnitudeOf] at *
      linarith
    · have some : 0 < stepsOf bits := by omega
      have isLeast : significand bits = hiddenBit := by
        have some := hiddenBit_le_significand some
        omega
      have whole : magnitudeOf bits = (2 * hiddenBit : ℕ) * 2 ^ (place bits - 1) := by
        rw [magnitudeOf, isLeast, zpow_sub_one₀ (by norm_num)]
        push_cast
        ring
      have least := quarter isLeast
      rw [lower_eq_of_least isLeast some, sub_mul]
      linarith
  · rw [upper_eq, add_mul]
    simp only [magnitudeOf] at *
    linarith

/-- Half the distance to a neighbour is more than a double divided by `2 ^ 54`. -/
theorem between_of_close (positive : 0 < bits)
    (close : |number - magnitudeOf bits| < magnitudeOf bits / 2 ^ 54) :
    lower bits < number ∧ number < upper bits := by
  refine between_of_near positive ?_ (fun isLeast => ?_) close
  · have unit : (0 : ℚ) < 2 ^ place bits := by positivity
    have most : (significand bits : ℚ) < 2 ^ 53 := by
      have bound : (significand bits : ℚ) < (2 * hiddenBit : ℕ) := by
        exact_mod_cast significand_lt bits
      norm_num [hiddenBit] at bound ⊢
      exact bound
    rw [magnitudeOf, div_le_div_iff₀ (by norm_num) (by norm_num)]
    nlinarith
  · rw [magnitudeOf, isLeast, zpow_sub_one₀ (by norm_num)]
    norm_num [hiddenBit]
    linarith

end Binary64

namespace Decimal

open Binary64

theorem roundsTo_iff (bits : ℕ) (number : ℚ) :
    roundsTo bits number = true ↔
      if 2 ∣ bits then lower bits ≤ number ∧ number ≤ upper bits
      else lower bits < number ∧ number < upper bits := by
  unfold roundsTo
  simp only [Nat.dvd_iff_mod_eq_zero]
  split
  · simp only [Bool.and_eq_true, decide_eq_true_eq]
    rfl
  · simp only [Bool.and_eq_true, decide_eq_true_eq]
    rfl

/-- A number that is said to read back as a double does. -/
theorem nearestBits_of_roundsTo {bits : ℕ} {number : ℚ} (positive : 0 < bits)
    (finite : bits < infinityBits) (rounds : roundsTo bits number = true) :
    nearestBits number = bits := by
  rw [roundsTo_iff] at rounds
  refine nearestBits_of_between positive finite ?_
  split at rounds
  · rename_i even
    exact .inr ⟨even, rounds⟩
  · exact .inl rounds

theorem roundsTo_of_close {bits : ℕ} {number : ℚ} (positive : 0 < bits)
    (close : |number - magnitudeOf bits| < magnitudeOf bits / 2 ^ 54) :
    roundsTo bits number = true := by
  obtain ⟨below, above⟩ := between_of_close positive close
  rw [roundsTo_iff]
  split
  · exact ⟨below.le, above.le⟩
  · exact ⟨below, above⟩

end Decimal

end Reckoner
