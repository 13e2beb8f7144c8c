import Mathlib.Data.List.Basic
import Mathlib.Tactic.Ring
import Reckoner.Proofs.Json.Grammar

/-!
# The digits of whole numbers

The digits of a whole number are a whole part of JSON, without zeros in front, and write the number.
Zeros behind some digits multiply what they write by powers of ten, and zeros in front change
nothing.
-/

set_option autoImplicit false

namespace Reckoner

namespace Text

theorem digitValue?_digitChar {digit : Nat} (bound : digit < 10) :
    digitValue? (Nat.digitChar digit) = some digit := by
  have each : ∀ digit ∈ List.range 10, digitValue? (Nat.digitChar digit) = some digit := by
    decide +kernel
  exact each digit (List.mem_range.2 bound)

theorem isAsciiDigit_digitChar {digit : Nat} (bound : digit < 10) :
    isAsciiDigit (Nat.digitChar digit) = true := by
  have each : ∀ digit ∈ List.range 10, isAsciiDigit (Nat.digitChar digit) = true := by
    decide
  exact each digit (List.mem_range.2 bound)

theorem digitsValue_concat (front : List Char) (c : Char) :
    digitsValue (front ++ [c]) = 10 * digitsValue front + (digitValue? c).getD 0 := by
  rw [digitsValue, List.foldl_append]
  rfl

theorem digitsValue_toDigits (number : Nat) : digitsValue (Nat.toDigits 10 number) = number := by
  induction number using Nat.strongRecOn with
  | ind number inner =>
    rw [Nat.toDigits_eq_if (by decide)]
    split
    · rename_i single
      rw [← List.nil_append [_], digitsValue_concat, digitValue?_digitChar single]
      exact Nat.zero_add number
    · rename_i several
      rw [digitsValue_concat, inner (number / 10) (by omega),
        digitValue?_digitChar (Nat.mod_lt number (by decide)), Option.getD_some]
      omega

theorem digitsValue_append_zeros (front : List Char) (count : Nat) :
    digitsValue (front ++ List.replicate count '0') = digitsValue front * 10 ^ count := by
  induction count with
  | zero => simp
  | succ count inner =>
    rw [List.replicate_succ', ← List.append_assoc, digitsValue_concat, inner, Nat.pow_succ]
    show 10 * _ + 0 = _
    ring

theorem digitsValue_zeros_append (count : Nat) (digits : List Char) :
    digitsValue (List.replicate count '0' ++ digits) = digitsValue digits := by
  induction count with
  | zero => rfl
  | succ count inner =>
    rw [← inner]
    rfl

end Text

namespace Json

open Text

theorem areDigits_append {front back : List Char} (areFront : AreDigits front)
    (areBack : ∀ c ∈ back, isAsciiDigit c = true) : AreDigits (front ++ back) where
  nonempty := List.append_ne_nil_of_left_ne_nil areFront.nonempty back
  ascii := fun c member => (List.mem_append.1 member).elim (areFront.ascii c) (areBack c)

theorem isAsciiDigit_of_mem_zeros {count : Nat} {c : Char} (member : c ∈ List.replicate count '0') :
    isAsciiDigit c = true := by
  rw [List.eq_of_mem_replicate member]
  decide

theorem areDigits_toDigits (number : Nat) : AreDigits (Nat.toDigits 10 number) where
  nonempty := Nat.toDigits_ne_nil
  ascii := by
    induction number using Nat.strongRecOn with
    | ind number inner =>
      rw [Nat.toDigits_eq_if (by decide)]
      split
      · rename_i single
        intro c member
        rw [List.mem_singleton.1 member]
        exact isAsciiDigit_digitChar single
      · rename_i several
        intro c member
        obtain front | last := List.mem_append.1 member
        · exact inner (number / 10) (by omega) c front
        · rw [List.mem_singleton.1 last]
          exact isAsciiDigit_digitChar (Nat.mod_lt number (by decide))

/-- The digits of a positive number do not begin with a zero. -/
theorem head?_toDigits_ne_zero {number : Nat} (positive : 0 < number) :
    (Nat.toDigits 10 number).head? ≠ some '0' := by
  induction number using Nat.strongRecOn with
  | ind number inner =>
    rw [Nat.toDigits_eq_if (by decide)]
    split
    · rename_i single
      have each : ∀ digit ∈ List.range 10, 0 < digit → Nat.digitChar digit ≠ '0' := by decide
      simpa using each number (List.mem_range.2 single) positive
    · rename_i several
      have front := inner (number / 10) (by omega) (by omega)
      rw [List.head?_append_of_ne_nil _ Nat.toDigits_ne_nil]
      exact front

theorem isWhole_toDigits (number : Nat) : IsWhole (Nat.toDigits 10 number) where
  digits := areDigits_toDigits number
  leading := by
    intro zero
    rcases Nat.eq_zero_or_pos number with rfl | positive
    · rfl
    · exact absurd zero (head?_toDigits_ne_zero positive)

end Json

end Reckoner
