import Reckoner.Json.Printer
import Reckoner.Proofs.Hexadecimal
import Reckoner.Proofs.Json.Grammar

/-!
# The texts of strings

The escapes of a string's characters stand for those characters and no others. Behind an escaped
unit no second half of a surrogate pair can be taken for a part of it, since no character is a first
half.
-/

set_option autoImplicit false

namespace Reckoner

namespace Text

/-! ## Characters by number -/

theorem CodePoint.ofNat_toNat (c : Char) : CodePoint.ofNat c.toNat = .char c := by
  have valid : c.toNat.isValidChar := c.valid
  rw [ofNat, dif_pos valid, Char.ofNat_toNat]

theorem not_isHighSurrogate (c : Char) : isHighSurrogate c.toNat = false := by
  have valid : c.toNat < 0xD800 ∨ 0xDFFF < c.toNat ∧ c.toNat < 0x110000 := c.valid
  simp only [isHighSurrogate, Bool.and_eq_false_iff, decide_eq_false_iff_not]
  omega

variable {code : Nat}

theorem isHighSurrogate_add (small : code < 0x100000) :
    isHighSurrogate (0xD800 + code / 0x400) = true := by
  simp only [isHighSurrogate, Bool.and_eq_true, decide_eq_true_eq]
  omega

theorem isLowSurrogate_add (code : Nat) : isLowSurrogate (0xDC00 + code % 0x400) = true := by
  simp only [isLowSurrogate, Bool.and_eq_true, decide_eq_true_eq]
  omega

/-- The two halves that the number of a character beyond the first 65536 is split into. -/
theorem pairedCharacter_halves (code : Nat) :
    pairedCharacter (0xD800 + code / 0x400) (0xDC00 + code % 0x400) =
      Char.ofNat (code + 0x10000) := by
  have whole : code / 0x400 * 0x400 + code % 0x400 = code := by omega
  rw [pairedCharacter, Nat.add_sub_cancel_left, Nat.add_sub_cancel_left, whole]

end Text

namespace Json

open Text CodePoint

/-! ## Escapes -/

theorem writesUnit_hexadecimal {unit : Nat} (small : unit < 0x10000) :
    WritesUnit unit ((hexadecimal 4 unit).map char) := by
  have first : unit / 16 / 16 / 16 < 16 := by omega
  have digit (number : Nat) : hexValue? (Nat.digitChar (number % 16)) = some (number % 16) :=
    hexValue?_digitChar (Nat.mod_lt number (by decide))
  have whole : unit / 16 / 16 / 16 * 4096 + unit / 16 / 16 % 16 * 256 + unit / 16 % 16 * 16 +
      unit % 16 = unit := by
    omega
  have writes : WritesUnit _ _ :=
    .digits (hexValue?_digitChar first) (digit (unit / 16 / 16)) (digit (unit / 16)) (digit unit)
  rw [hexadecimal_succ (by decide), hexadecimal_succ (by decide), hexadecimal_succ (by decide),
    hexadecimal_one first]
  rwa [whole] at writes

variable {meant written : CodePoints}

theorem writesString_unit {c : Char} (small : c.toNat ≤ 0xFFFF)
    (writes : WritesString meant written) :
    WritesString (char c :: meant) ((unitEscape c.toNat).map char ++ written) := by
  have unit := writesUnit_hexadecimal (Nat.lt_succ_of_le small)
  -- Whatever escape follows, it cannot be taken for the other half of this one.
  have noHalf : isHighSurrogate c.toNat = true → ¬ BeginsWithLow written := by
    rw [not_isHighSurrogate]
    exact nofun
  have escaped := WritesString.unit unit noHalf writes
  rw [CodePoint.ofNat_toNat] at escaped
  simpa [unitEscape] using escaped

theorem writesString_pair {code : Nat} (small : code < 0x100000)
    (writes : WritesString meant written) :
    WritesString (char (Char.ofNat (code + 0x10000)) :: meant)
      ((unitEscape (0xD800 + code / 0x400) ++ unitEscape (0xDC00 + code % 0x400)).map char ++
        written) := by
  have high : 0xD800 + code / 0x400 < 0x10000 := by omega
  have low : 0xDC00 + code % 0x400 < 0x10000 := by omega
  have escaped := WritesString.pair
    (writesUnit_hexadecimal high) (isHighSurrogate_add small)
    (writesUnit_hexadecimal low) (isLowSurrogate_add code) writes
  rw [pairedCharacter_halves] at escaped
  simpa [unitEscape] using escaped

/-- The escape of a character in front of a string puts the character in front of what it means. -/
theorem writesString_escapeChar (c : Char) (writes : WritesString meant written) :
    WritesString (char c :: meant) ((escapeChar c).map char ++ written) := by
  have simple {letter : Char} (stands : simpleEscape? letter = some c) :
      WritesString (char c :: meant) (['\\', letter].map char ++ written) := .escape stands writes
  unfold escapeChar
  by_cases quote : c = '"'
  · rw [if_pos quote]
    exact simple (by rw [quote]; rfl)
  by_cases backslash : c = '\\'
  · rw [if_neg quote, if_pos backslash]
    exact simple (by rw [backslash]; rfl)
  rw [if_neg quote, if_neg backslash]
  split
  · rename_i line
    exact simple (line ▸ rfl)
  split
  · rename_i carriage
    exact simple (carriage ▸ rfl)
  split
  · rename_i tab
    exact simple (tab ▸ rfl)
  split
  · rename_i back
    exact simple (back ▸ rfl)
  split
  · rename_i form
    exact simple (form ▸ rfl)
  split
  · rename_i printable
    simp only [Bool.and_eq_true, decide_eq_true_eq] at printable
    exact .plain (quote ∘ CodePoint.char.inj) (backslash ∘ CodePoint.char.inj) printable.1 writes
  split
  · rename_i small
    exact writesString_unit small writes
  · have valid : c.toNat < 0xD800 ∨ 0xDFFF < c.toNat ∧ c.toNat < 0x110000 := c.valid
    have same : c.toNat - 0x10000 + 0x10000 = c.toNat := by omega
    have small : c.toNat - 0x10000 < 0x100000 := by omega
    have escaped := writesString_pair small writes
    rwa [same, Char.ofNat_toNat] at escaped

theorem writesString_escaped (characters : List Char) :
    WritesString (characters.map char) ((characters.flatMap escapeChar).map char) := by
  induction characters with
  | nil => exact .nil
  | cons c characters inner =>
    rw [List.flatMap_cons, List.map_append]
    exact writesString_escapeChar c inner

theorem toList_stringText (text : String) :
    (stringText text).toList = '"' :: text.toList.flatMap escapeChar ++ ['"'] := by
  rw [stringText, String.toList_ofList]

end Json

end Reckoner
