import Reckoner.Proofs.Binary64.Interval

/-!
# The shortest decimal numbers read back

Seventeen digits bring a decimal number nearer to a double than the midpoints to its neighbours, so
the search for the fewest digits comes to an end, and what it finds rounds to the double.
-/

set_option autoImplicit false

namespace Reckoner.Decimal

open Binary64

/-! ## Decades -/

theorem pow_le_of_toDigits {number : ℕ} (nonzero : number ≠ 0) :
    10 ^ ((Nat.toDigits 10 number).length - 1) ≤ number := by
  rcases Nat.eq_zero_or_pos ((Nat.toDigits 10 number).length - 1) with single | several
  · rw [single]
    omega
  · refine Nat.not_lt.1 fun below => ?_
    have shorter := (Nat.length_toDigits_le_iff (by decide) several).2 below
    omega

theorem lt_pow_of_toDigits (number : ℕ) :
    number < 10 ^ ((Nat.toDigits 10 number).length - 1 + 1) := by
  have some := @Nat.length_toDigits_pos 10 number
  rw [Nat.sub_add_cancel some]
  exact (Nat.length_toDigits_le_iff (by decide) some).1 (Nat.le_refl _)

/-- The decade of a positive number is the power of ten at most the number, with none between. -/
theorem decade_spec {number : ℚ} (positive : 0 < number) :
    (10 : ℚ) ^ decade number ≤ number ∧ number < (10 : ℚ) ^ (decade number + 1) := by
  have top := Rat.num_pos.2 positive
  have topNat : number.num.natAbs ≠ 0 := by omega
  have topSome := @Nat.length_toDigits_pos 10 number.num.natAbs
  have bottomSome := @Nat.length_toDigits_pos 10 number.den
  have between := fraction_between (by decide) positive (pow_le_of_toDigits topNat)
    (lt_pow_of_toDigits _) (pow_le_of_toDigits number.den_ne_zero) (lt_pow_of_toDigits _)
  have same : (((Nat.toDigits 10 number.num.natAbs).length - 1 : ℕ) : ℤ) -
      ((Nat.toDigits 10 number.den).length - 1 : ℕ) =
      (Nat.toDigits 10 number.num.natAbs).length - (Nat.toDigits 10 number.den).length := by
    omega
  rw [same] at between
  obtain ⟨low, high⟩ := between
  simp only [decade]
  split
  · rename_i atLeast
    exact ⟨atLeast, by exact_mod_cast high⟩
  · rename_i less
    exact ⟨by exact_mod_cast low, by rwa [sub_add_cancel, ← not_le]⟩

theorem lowest_power : (10 : ℚ) ^ (-324 : ℤ) ≤ 2 ^ lowestPlace := by
  have powers : (2 : ℚ) ^ 1074 ≤ 10 ^ 324 := by
    exact_mod_cast (by decide +kernel : 2 ^ 1074 ≤ 10 ^ 324)
  rw [lowestPlace, zpow_neg, zpow_neg, inv_le_inv₀ (by positivity) (by positivity)]
  exact_mod_cast powers

theorem highest_power : (2 : ℚ) ^ (53 : ℤ) * 2 ^ (971 : ℤ) < 10 ^ (309 : ℤ) := by
  have powers : (2 : ℚ) ^ 1024 < 10 ^ 309 := by
    exact_mod_cast (by decide +kernel : 2 ^ 1024 < 10 ^ 309)
  rw [← zpow_add₀ (by norm_num), show (53 : ℤ) + 971 = (1024 : ℕ) from rfl,
    show (309 : ℤ) = (309 : ℕ) from rfl, zpow_natCast, zpow_natCast]
  exact powers

theorem decade_bounds {bits : ℕ} (positive : 0 < bits) (finite : bits < infinityBits) :
    -324 ≤ decade (magnitudeOf bits) ∧ decade (magnitudeOf bits) ≤ 308 := by
  obtain ⟨low, high⟩ := decade_spec (magnitudeOf_pos positive)
  have some : (1 : ℚ) ≤ significand bits := by exact_mod_cast significand_pos.2 positive
  have most : (significand bits : ℚ) < 2 ^ (53 : ℤ) := by
    have bound : (significand bits : ℚ) < (2 * hiddenBit : ℕ) := by exact_mod_cast significand_lt bits
    norm_num [hiddenBit] at bound ⊢
    exact bound
  constructor
  · have least : (10 : ℚ) ^ (-324 : ℤ) ≤ magnitudeOf bits := by
      calc (10 : ℚ) ^ (-324 : ℤ) ≤ 1 * 2 ^ lowestPlace := by
            rw [one_mul]
            exact lowest_power
        _ ≤ magnitudeOf bits := by
          unfold magnitudeOf
          gcongr
          · norm_num
          · exact lowestPlace_le_place bits
    have order := (zpow_lt_zpow_iff_right₀ (by norm_num)).1 (least.trans_lt high)
    omega
  · have below : magnitudeOf bits < (10 : ℚ) ^ (309 : ℤ) := by
      calc magnitudeOf bits < 2 ^ (53 : ℤ) * 2 ^ place bits :=
            mul_lt_mul_of_pos_right most (by positivity)
        _ ≤ 2 ^ (53 : ℤ) * 2 ^ (971 : ℤ) := by
          gcongr
          · norm_num
          · exact place_le finite
        _ < 10 ^ (309 : ℤ) := highest_power
    have order := (zpow_lt_zpow_iff_right₀ (by norm_num)).1 (low.trans_lt below)
    omega

/-! ## Candidates -/

variable {bits : ℕ}

/-- A decimal number that stands for a double, with an exponent that is not extreme. -/
structure ReadsBack (bits : ℕ) (number : Scaled) : Prop where
  digits : 0 < number.digits
  rounds : roundsTo bits number.value = true
  least : -340 ≤ number.exponent
  most : number.exponent ≤ 308

theorem pos_of_roundsTo {number : ℚ} (positive : 0 < bits) (rounds : roundsTo bits number = true) :
    0 < number := by
  have some := lower_pos positive
  rw [roundsTo_iff] at rounds
  split at rounds
  · exact some.trans_le rounds.1
  · exact some.trans rounds.1

theorem readsBack_of_reading {units exponent : ℤ} {found : Scaled} (positive : 0 < bits)
    (least : -340 ≤ exponent) (most : exponent ≤ 308)
    (reading : (if roundsTo bits (units * (10 : ℚ) ^ exponent) then some ⟨units.toNat, exponent⟩
      else none) = some found) : ReadsBack bits found := by
  split at reading
  case isFalse => cases reading
  rename_i rounds
  obtain rfl := Option.some.inj reading
  have power : (0 : ℚ) < 10 ^ exponent := by positivity
  have some : 0 < units := by
    exact_mod_cast pos_of_mul_pos_left (pos_of_roundsTo positive rounds) power.le
  refine ⟨by simp only; omega, ?_, least, most⟩
  have cast : ((units.toNat : ℤ) : ℚ) = units := by rw [Int.toNat_of_nonneg some.le]
  rw [Scaled.value, ← Int.cast_natCast, cast]
  exact rounds

theorem readsBack_of_candidate? {digits : ℕ} {found : Scaled} (positive : 0 < bits)
    (finite : bits < infinityBits) (few : digits < 17)
    (isCandidate : candidate? bits (digits + 1) = some found) : ReadsBack bits found := by
  obtain ⟨lowest, highest⟩ := decade_bounds positive finite
  unfold candidate? at isCandidate
  simp only [Option.or_eq_some_iff] at isCandidate
  obtain isNear | ⟨-, isFar⟩ := isCandidate
  · exact readsBack_of_reading positive (by push_cast; omega) (by push_cast; omega) isNear
  · exact readsBack_of_reading positive (by push_cast; omega) (by push_cast; omega) isFar

/-- The nearest number of seventeen digits reads back. -/
theorem candidate?_seventeen (positive : 0 < bits) : candidate? bits 17 ≠ none := by
  have some := magnitudeOf_pos positive
  obtain ⟨low, -⟩ := decade_spec some
  have power : (0 : ℚ) < 10 ^ (decade (magnitudeOf bits) - (17 : ℕ) + 1) := by positivity
  have grid : (10 : ℚ) ^ (decade (magnitudeOf bits) - (17 : ℕ) + 1) ≤ magnitudeOf bits / 10 ^ 16 := by
    have exponent : decade (magnitudeOf bits) - (17 : ℕ) + 1 = decade (magnitudeOf bits) - (16 : ℕ) := by
      push_cast
      ring
    rw [exponent, zpow_sub₀ (by norm_num), zpow_natCast]
    gcongr
  have close : |(roundHalfEven (magnitudeOf bits /
      10 ^ (decade (magnitudeOf bits) - (17 : ℕ) + 1)) : ℚ) *
        10 ^ (decade (magnitudeOf bits) - (17 : ℕ) + 1) - magnitudeOf bits| <
          magnitudeOf bits / 2 ^ 54 := by
    generalize (10 : ℚ) ^ (decade (magnitudeOf bits) - (17 : ℕ) + 1) = unit at *
    calc |(roundHalfEven (magnitudeOf bits / unit) : ℚ) * unit - magnitudeOf bits|
      _ = |(roundHalfEven (magnitudeOf bits / unit) : ℚ) - magnitudeOf bits / unit| * unit := by
        rw [← abs_of_pos power, ← abs_mul, sub_mul, abs_of_pos power,
          div_mul_cancel₀ _ power.ne']
      _ ≤ 1 / 2 * unit := by
        gcongr
        exact abs_roundHalfEven_sub_le_half _
      _ ≤ 1 / 2 * (magnitudeOf bits / 10 ^ 16) := by gcongr
      _ < magnitudeOf bits / 2 ^ 54 := by
        rw [div_eq_mul_inv, div_eq_mul_inv]
        norm_num
        linarith
  unfold candidate?
  simp only [roundsTo_of_close positive close, if_true]
  exact nofun

/-- The shortest decimal number that is found for a double reads back as it. -/
theorem readsBack_shortest (positive : 0 < bits) (finite : bits < infinityBits) :
    ReadsBack bits (shortest bits) := by
  unfold shortest
  cases found : (List.range 17).findSome? fun digits => candidate? bits (digits + 1) with
  | none =>
    rw [List.findSome?_eq_none_iff] at found
    exact absurd (found 16 (by decide)) (candidate?_seventeen positive)
  | some number =>
    obtain ⟨digits, few, isCandidate⟩ := List.exists_of_findSome?_eq_some found
    exact readsBack_of_candidate? positive finite (List.mem_range.1 few) isCandidate

end Reckoner.Decimal
