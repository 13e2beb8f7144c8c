import Reckoner.Proofs.Binary64.Exact
import Reckoner.Settings.Basic

/-!
# When a rounding is refused

A rounding is refused for the number of digits it would work with and for nothing else. Places that
leave room for the longest double beside them are never refused, whatever the double.
-/

set_option autoImplicit false

namespace Reckoner

open Binary64

namespace Decimal

variable {number : Float} {places : Int}

theorem refusal?_eq_none_iff {digits : Int} :
    refusal? digits = none ↔ 1 ≤ digits ∧ digits ≤ maxWorkingDigits := by
  unfold refusal?
  split_ifs with beyond outside
  · refine iff_of_false nofun ?_
    rw [Bool.or_eq_true, decide_eq_true_eq, decide_eq_true_eq] at beyond
    simp only [wordBound, maxWorkingDigits] at *
    omega
  · refine iff_of_false nofun ?_
    rw [Bool.or_eq_true, decide_eq_true_eq, decide_eq_true_eq] at outside
    omega
  · refine iff_of_true rfl ?_
    rw [Bool.or_eq_true, decide_eq_true_eq, decide_eq_true_eq] at outside
    omega

/-- The answer of a rounding that is not refused. -/
def rounded (number : Float) (places : Int) : Float :=
  if !number.isFinite || (exactPlaces number : Int) ≤ places then number
  else nearest (isNegative number) (roundMagnitude (magnitude number) places)

/-- A rounding has one answer, and is refused only for its working digits. -/
theorem roundHalfAway_eq (number : Float) (places : Int) :
    roundHalfAway number places =
      match if number.isFinite then refusal? (workingDigits number places) else none with
      | some error => .error error
      | none => .ok (rounded number places) := by
  unfold roundHalfAway rounded
  cases finite : number.isFinite with
  | false => simp
  | true =>
    simp only [Bool.not_true, Bool.false_eq_true, if_false, if_true, Bool.false_or,
      decide_eq_true_eq]
    cases refusal? (workingDigits number places) with
    | some error => rfl
    | none =>
      simp only
      split
      · rfl
      · rfl

theorem rounded_of_ok {result : Float} (ok : roundHalfAway number places = .ok result) :
    rounded number places = result := by
  rw [roundHalfAway_eq] at ok
  generalize (if number.isFinite = true then refusal? (workingDigits number places) else none) =
    refusal at ok
  cases refusal with
  | some error => cases ok
  | none => exact Except.ok.inj ok

theorem roundHalfAway_of_working {number : Float} {places : Int}
    (least : 1 ≤ workingDigits number places)
    (most : workingDigits number places ≤ maxWorkingDigits) :
    roundHalfAway number places = .ok (rounded number places) := by
  rw [roundHalfAway_eq, refusal?_eq_none_iff.2 ⟨least, most⟩, ite_self]

/-- The rounding of a finite double is refused if there is no digit to work with or if there are too
many. -/
theorem refused_iff (finite : number.isFinite = true) :
    (∃ error, roundHalfAway number places = .error error) ↔
      workingDigits number places < 1 ∨ maxWorkingDigits < workingDigits number places := by
  have isNone := @refusal?_eq_none_iff (workingDigits number places)
  rw [roundHalfAway_eq, if_pos finite, ← Int.not_le, ← Int.not_le, ← not_and_or, ← isNone]
  cases refusal? (workingDigits number places) with
  | some error => exact iff_of_true ⟨error, rfl⟩ nofun
  | none => exact iff_of_false nofun fun accepted => accepted rfl

/-- Places are workable when the longest double leaves room for them. -/
def Workable (places : Nat) : Prop :=
  (places : Int) + 769 ≤ maxWorkingDigits

instance (places : Nat) : Decidable (Workable places) :=
  inferInstanceAs (Decidable ((places : Int) + 769 ≤ maxWorkingDigits))

theorem roundHalfAway_of_workable (number : Float) {places : Nat} (workable : Workable places) :
    roundHalfAway number places = .ok (rounded number places) := by
  cases finite : number.isFinite with
  | false =>
    rw [roundHalfAway_eq, finite]
    rfl
  | true =>
    have longest := exactDigits_le finite
    unfold Workable at workable
    apply roundHalfAway_of_working
    · simp only [workingDigits]
      omega
    · simp only [workingDigits]
      omega

/-- Rounding to a whole number is rounding to no places, which is never refused. -/
theorem roundHalfAway_zero (number : Float) :
    roundHalfAway number 0 = .ok (roundToWhole number) := by
  have accepted := @roundHalfAway_of_workable number 0 (by decide)
  rw [Nat.cast_zero] at accepted
  rw [accepted]
  unfold rounded roundToWhole
  cases number.isFinite with
  | false => rfl
  | true =>
    by_cases whole : exactPlaces number = 0
    · simp [whole]
    · have some : ¬ (exactPlaces number : Int) ≤ 0 := by omega
      simp [whole]

end Decimal

/-- A precision that no double is refused for. -/
def Precision.Workable : Precision → Prop
  | unset => True
  | places count => Decimal.Workable count

theorem Precision.round_of_workable {precision : Precision} (workable : precision.Workable)
    (number : Float) : ∃ rounded, precision.round number = .ok rounded := by
  cases precision with
  | unset => exact ⟨number, rfl⟩
  | places count => exact ⟨_, Decimal.roundHalfAway_of_workable number workable⟩

structure Settings.Workable (settings : Settings) : Prop where
  precision : settings.precision.Workable
  resultPrecision : settings.resultPrecision.Workable

end Reckoner
