import Reckoner.Text.Escape

/-!
# Hexadecimal digits

The hexadecimal digits of a number, with or without zeros in front, write that number and no other.
As many digits as a width asks for are the digits of the number one after the other.
-/

set_option autoImplicit false

namespace Reckoner.Text

/-- The number that hexadecimal digits write; a character that is no such digit counts as zero. -/
def hexadecimalValue (digits : List Char) : Nat :=
  digits.foldl (fun value c => 16 * value + (hexValue? c).getD 0) 0

theorem hexValue?_digitChar {digit : Nat} (bound : digit < 16) :
    hexValue? (Nat.digitChar digit) = some digit := by
  have each : ∀ digit ∈ List.range 16, hexValue? (Nat.digitChar digit) = some digit := by
    decide
  exact each digit (List.mem_range.2 bound)

theorem hexadecimalValue_toDigits (number : Nat) :
    hexadecimalValue (Nat.toDigits 16 number) = number := by
  induction number using Nat.strongRecOn with
  | ind number inner =>
    rw [Nat.toDigits_eq_if (by decide)]
    split
    · rename_i single
      simp [hexadecimalValue, hexValue?_digitChar single]
    · rename_i several
      have front := inner (number / 16) (by omega)
      have last := hexValue?_digitChar (Nat.mod_lt number (by decide : 0 < 16))
      unfold hexadecimalValue at front ⊢
      rw [List.foldl_append, front]
      simp only [List.foldl_cons, List.foldl_nil, last, Option.getD_some]
      omega

theorem hexadecimalValue_hexadecimal (width number : Nat) :
    hexadecimalValue (hexadecimal width number) = number := by
  have zeros (count : Nat) (digits : List Char) :
      hexadecimalValue (List.replicate count '0' ++ digits) = hexadecimalValue digits := by
    induction count with
    | zero => rfl
    | succ count inner => rw [List.replicate_succ, List.cons_append, ← inner]; rfl
  unfold hexadecimal
  rw [zeros, hexadecimalValue_toDigits]

theorem hexadecimal_one {digit : Nat} (bound : digit < 16) :
    hexadecimal 1 digit = [Nat.digitChar digit] := by
  rw [hexadecimal, Nat.toDigits_eq_if (by decide), if_pos bound]
  rfl

/-- The last digit stands behind the digits of the rest, which has a digit less. -/
theorem hexadecimal_succ {width : Nat} (positive : 0 < width) (number : Nat) :
    hexadecimal (width + 1) number =
      hexadecimal width (number / 16) ++ [Nat.digitChar (number % 16)] := by
  unfold hexadecimal
  rw [Nat.toDigits_eq_if (by decide)]
  split
  · rename_i single
    obtain ⟨less, rfl⟩ := Nat.exists_eq_succ_of_ne_zero (Nat.ne_of_gt positive)
    rw [Nat.div_eq_of_lt single, Nat.mod_eq_of_lt single]
    simp only [List.length_singleton, Nat.toDigits_zero, Nat.succ_eq_add_one, Nat.add_sub_cancel,
      ← List.replicate_succ']
  · simp only [List.length_append, List.length_singleton, Nat.add_sub_add_right, List.append_assoc]

end Reckoner.Text
