import Reckoner.Proofs.Expression.Basic
import Reckoner.Proofs.Lexed
import Mathlib.Data.Nat.Digits.Lemmas

/-!
# The texts of operands

An operand is a name, a numeral or an unknown character of the expression, or the result of an
operation in its written form.
-/

set_option autoImplicit false

namespace Reckoner

open Text

/-- The texts that operands have. A result is written as a numeral, or it is one of the names `inf`
and `nan`, or minus infinity. -/
inductive OperandText : String → Prop where
  | name (name : VariableName) : OperandText name.text
  | numeral (signed : SignedNumeral) (written : signed.numeral.IsWritten) :
    OperandText (String.ofList signed.chars)
  | minusInfinity : OperandText "-inf"
  | character (c : Char) (visible : isBlank c = false) (noDigit : isDigit c = false)
      (noWord : isWordStart c = false) (noOperator : String.singleton c ∉ Token.operatorTexts)
      (noParenthesis : c ≠ '(' ∧ c ≠ ')') : OperandText (String.singleton c)

/-! ## Operands that are read -/

namespace Token

theorem operandText_symbolToken {c : Char} (visible : isBlank c = false)
    (noDigit : isDigit c = false) (noWord : isWordStart c = false)
    (isOperand : (Piece.symbolToken c).isOperand = true) :
    OperandText (Piece.symbolToken c).text := by
  rw [text_symbolToken]
  unfold Piece.symbolToken at isOperand
  simp only at isOperand
  split at isOperand
  · cases isOperand
  · rename_i noOperator
    split at isOperand
    · cases isOperand
    · rename_i noOpening
      split at isOperand
      · cases isOperand
      · rename_i noClosing
        exact .character c visible noDigit noWord
          (fun member => noOperator (List.contains_iff_mem.2 member)) ⟨noOpening, noClosing⟩

theorem operandText_of_mem_read {previous : Option Token} {characters : List Char} :
    ∀ token ∈ Piece.read previous characters, token.isOperand = true → OperandText token.text := by
  refine Piece.forall_mem_read _ ⟨?_, ?_⟩ ?_ ?_ ?_ ?_
  · exact fun _ => .numeral ⟨some .minus, ⟨['1'], none, none⟩⟩
      (@Numeral.isWritten_of_scan ['1'] [] _ (by decide))
  · exact nofun
  · exact fun _ => .numeral ⟨none, ⟨['0'], none, none⟩⟩
      (@Numeral.isWritten_of_scan ['0'] [] _ (by decide))
  · exact fun signed written _ => .numeral signed written
  · intro word isWord isOperand
    rcases ofWord_cases word with ⟨isFunction, -⟩ | ⟨unit, isUnit⟩ | isName
    · simp [Token.isOperand, isFunction] at isOperand
    · simp [Token.isOperand, isUnit] at isOperand
    · rw [isName]
      exact .name ⟨word, isWord, by rw [isName]⟩
  · exact fun c _ visible noDigit noWord => operandText_symbolToken visible noDigit noWord

end Token

/-! ## Operands that are results -/

namespace Decimal

theorem isDigit_of_mem_paddedDigits {width number : Nat} {c : Char}
    (member : c ∈ paddedDigits width number) : isDigit c = true := by
  rcases List.mem_append.1 member with zero | digit
  · rw [List.eq_of_mem_replicate zero]
    decide
  · have bounds := Nat.isDigit_of_mem_toDigits (by decide) (by decide) digit
    simp only [Char.isDigit, Bool.and_eq_true, decide_eq_true_eq, ge_iff_le, UInt32.le_iff_toNat_le]
      at bounds
    have inRun : ∃ start ∈ zeroDigits, (start ≤ c.toNat && c.toNat < start + 10) = true := by
      refine ⟨0x30, by decide, ?_⟩
      simp only [Bool.and_eq_true, decide_eq_true_eq]
      exact ⟨bounds.1, Nat.lt_succ_of_le bounds.2⟩
    simpa [isDigit, digitValue?] using inRun

theorem exists_numeral_placePoint (places units : Nat) :
    ∃ numeral : Numeral, numeral.IsWritten ∧ numeral.chars = placePoint places units := by
  let digits := paddedDigits (places + 1) units
  let whole := digits.take (digits.length - places)
  let fraction := digits.drop (digits.length - places)
  have longer : places < digits.length := by
    simp only [digits, paddedDigits, List.length_append, List.length_replicate]
    omega
  refine ⟨⟨whole, some fraction, none⟩, ?_, ?_⟩
  · refine ⟨?_, ?_, .inl ?_, nofun⟩
    · exact fun c member => isDigit_of_mem_paddedDigits (List.mem_of_mem_take member)
    · exact fun c member => isDigit_of_mem_paddedDigits (List.mem_of_mem_drop member)
    · rw [← List.length_pos_iff, List.length_take]
      omega
  · simp [Numeral.chars, placePoint, whole, fraction, digits]

theorem operandText_format (number : Float) : OperandText (format number) := by
  unfold format fixed
  split
  · exact .name ⟨"nan", by decide, by decide⟩
  · simp only
    split
    · split
      · exact .minusInfinity
      · exact .name ⟨"inf", by decide, by decide⟩
    · obtain ⟨numeral, written, same⟩ :=
        exists_numeral_placePoint writtenPlaces
          (fixedUnits writtenPlaces (Binary64.magnitude number))
      rw [← same]
      split
      · exact .numeral ⟨some .minus, numeral⟩ written
      · exact .numeral ⟨none, numeral⟩ written

end Decimal

end Reckoner
