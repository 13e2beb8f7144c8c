import Reckoner.Proofs.Binary64.Interval

/-!
# The order of doubles

The bits of doubles without their signs are in the order of the magnitudes that they stand for, and
so are those of infinity if it counts as the power of two after the largest double. Two doubles of
which none is a NaN are compared as the exact values that they have by this count.
-/

set_option autoImplicit false

namespace Reckoner.Binary64

open Float.Model Float.Model.UnpackedFloat

/-! ## Magnitudes -/

theorem magnitudeOf_strictMono : StrictMono magnitudeOf := by
  refine strictMono_nat_of_lt_succ fun bits => ?_
  rw [magnitudeOf_succ, magnitudeOf]
  exact mul_lt_mul_of_pos_right (lt_add_one _) (by positivity)

theorem magnitudeOf_zero : magnitudeOf 0 = 0 := by
  simp [magnitudeOf, significand, hiddenBit]

theorem magnitudeOf_nonneg (bits : ℕ) : 0 ≤ magnitudeOf bits := by
  unfold magnitudeOf
  positivity

theorem place_mono {bits other : ℕ} (below : bits ≤ other) : place bits ≤ place other := by
  unfold place hiddenBit
  split_ifs
  · exact le_rfl
  · omega
  · omega
  · omega

/-- The places of two doubles decide how their bits compare, and for the same place the units. -/
theorem compare_place_then (bits other : ℕ) :
    (compare (place bits) (place other)).then (compare (significand bits) (significand other)) =
      compare bits other := by
  have units {low high : ℕ} (below : low < high) (same : place low = place high) :
      significand low < significand high := by
    have lowEq := bits_eq low
    have highEq := bits_eq high
    unfold stepsOf at lowEq highEq
    rw [same] at lowEq
    omega
  rcases lt_trichotomy bits other with below | same | above
  · rw [compare_lt_iff_lt.2 below]
    rcases (place_mono below.le).lt_or_eq with lower | same
    · rw [compare_lt_iff_lt.2 lower]
      rfl
    · rw [compare_eq_iff_eq.2 same, compare_lt_iff_lt.2 (units below same)]
      rfl
  · rw [same, compare_eq_iff_eq.2 rfl, compare_eq_iff_eq.2 rfl, compare_eq_iff_eq.2 rfl]
    rfl
  · rw [compare_gt_iff_gt.2 above]
    rcases (place_mono above.le).lt_or_eq with lower | same
    · rw [compare_gt_iff_gt.2 lower]
      rfl
    · rw [compare_eq_iff_eq.2 same.symm, compare_gt_iff_gt.2 (units above same)]
      rfl

/-! ## Comparisons -/

/-- The number with the given sign and the given magnitude. -/
def withSign (negative : Bool) (magnitude : ℚ) : ℚ :=
  if negative then -magnitude else magnitude

theorem value_eq_withSign (number : Float) :
    value number = withSign (isNegative number) (magnitude number) := rfl

theorem abs_withSign (negative : Bool) (magnitude : ℚ) :
    |withSign negative magnitude| = |magnitude| := by
  cases negative with
  | false => rfl
  | true => exact abs_neg magnitude

/-- Numbers that are not zero have one sign and one magnitude. -/
theorem withSign_inj {negative other : Bool} {left right : ℚ} (nonneg : 0 ≤ left)
    (positive : 0 < right) (same : withSign negative left = withSign other right) :
    negative = other ∧ left = right := by
  unfold withSign at same
  cases negative <;> cases other <;> simp at same ⊢ <;> linarith

theorem le_iff_unpacked (left right : Float) :
    left ≤ right ↔ left.toModel.unpack.le right.toModel.unpack = true := by
  change decide (left.toModel ≤ right.toModel) = true ↔ _
  rw [decide_eq_true_iff]
  rfl

theorem shape_le_shape_iff (negative other : Bool) {bits more : ℕ} (isNumber : bits ≤ infinityBits)
    (alsoNumber : more ≤ infinityBits) :
    (shape negative bits).le (shape other more) = true ↔
      withSign negative (magnitudeOf bits) ≤ withSign other (magnitudeOf more) := by
  have shapes {bits : ℕ} (isNumber : bits ≤ infinityBits) :
      bits = 0 ∨ (0 < bits ∧ bits < infinityBits) ∨ bits = infinityBits := by omega
  have largest := magnitudeOf_pos (by decide : 0 < infinityBits)
  have opposite {low high : ℚ} (lowPos : 0 < low) (highPos : 0 < high) : -low < high := by linarith
  rcases shapes isNumber with rfl | ⟨positive, finite⟩ | rfl
  · rcases shapes alsoNumber with rfl | ⟨positive', finite'⟩ | rfl
    · rw [shape_zero, shape_zero]
      cases negative <;> cases other <;>
        simp [UnpackedFloat.le, UnpackedFloat.compare, withSign, magnitudeOf_zero]
    · have some' := magnitudeOf_pos positive'
      rw [shape_zero, shape_finite _ positive' finite']
      cases negative <;> cases other <;>
        simp [UnpackedFloat.le, UnpackedFloat.compare, signOf, withSign, magnitudeOf_zero, some',
          some'.le]
    · rw [shape_zero, shape_infinity]
      cases negative <;> cases other <;>
        simp [UnpackedFloat.le, UnpackedFloat.compare, signOf, withSign, magnitudeOf_zero, largest,
          largest.le]
  · have some := magnitudeOf_pos positive
    have below := magnitudeOf_strictMono finite
    rcases shapes alsoNumber with rfl | ⟨positive', finite'⟩ | rfl
    · rw [shape_zero, shape_finite _ positive finite]
      cases negative <;> cases other <;>
        simp [UnpackedFloat.le, UnpackedFloat.compare, signOf, withSign, magnitudeOf_zero, some,
          some.le]
    · have some' := magnitudeOf_pos positive'
      rw [shape_finite _ positive finite, shape_finite _ positive' finite']
      cases negative <;> cases other <;>
        simp [UnpackedFloat.le, UnpackedFloat.compare, signOf, withSign, compare_place_then,
          Nat.isLE_compare, Nat.isGE_compare, magnitudeOf_strictMono.le_iff_le,
          opposite some' some, (opposite some some').le]
    · rw [shape_finite _ positive finite, shape_infinity]
      cases negative <;> cases other <;>
        simp [UnpackedFloat.le, UnpackedFloat.compare, signOf, withSign, below, below.le,
          opposite largest some, (opposite some largest).le]
  · rcases shapes alsoNumber with rfl | ⟨positive', finite'⟩ | rfl
    · rw [shape_zero, shape_infinity]
      cases negative <;> cases other <;>
        simp [UnpackedFloat.le, UnpackedFloat.compare, signOf, withSign, magnitudeOf_zero, largest,
          largest.le]
    · have some' := magnitudeOf_pos positive'
      have below := magnitudeOf_strictMono finite'
      rw [shape_infinity, shape_finite _ positive' finite']
      cases negative <;> cases other <;>
        simp [UnpackedFloat.le, UnpackedFloat.compare, signOf, withSign, below, below.le,
          opposite some' largest, (opposite largest some').le]
    · have signs : (compare Sign.negative Sign.positive).isLE = true ∧
          (compare Sign.positive Sign.negative).isLE = false ∧
          ∀ sign : Sign, (compare sign sign).isLE = true := by decide
      rw [shape_infinity, shape_infinity]
      cases negative <;> cases other <;>
        simp [UnpackedFloat.le, UnpackedFloat.compare, signOf, withSign, signs, largest, largest.le]

theorem isNaN_eq_false_iff (number : Float) :
    number.isNaN = false ↔ magnitudeBits number ≤ infinityBits := by
  have unpacked := unpack_toModel number
  have same : number.isNaN = number.toModel.unpack.isNaN := rfl
  rw [same, unpacked]
  rcases Nat.lt_trichotomy (magnitudeBits number) infinityBits with finite | infinite | beyond
  · rcases Nat.eq_zero_or_pos (magnitudeBits number) with zero | positive
    · rw [zero, shape_zero]
      simp [UnpackedFloat.isNaN]
    · rw [shape_finite _ positive finite]
      simp [UnpackedFloat.isNaN, finite.le]
  · rw [infinite, shape_infinity]
    simp [UnpackedFloat.isNaN]
  · rw [shape_notANumber _ beyond]
    simp [UnpackedFloat.isNaN, beyond]

theorem isNaN_of_isFinite {number : Float} (finite : number.isFinite = true) :
    number.isNaN = false :=
  (isNaN_eq_false_iff number).2 ((isFinite_iff number).1 finite).le

/-- A double that is no NaN is at most another one exactly if its value is. -/
theorem le_iff_value_le {left right : Float} (isNumber : left.isNaN = false)
    (alsoNumber : right.isNaN = false) : left ≤ right ↔ value left ≤ value right := by
  rw [le_iff_unpacked, unpack_toModel, unpack_toModel]
  exact shape_le_shape_iff _ _ ((isNaN_eq_false_iff left).1 isNumber)
    ((isNaN_eq_false_iff right).1 alsoNumber)

end Reckoner.Binary64
