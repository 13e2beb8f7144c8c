import Reckoner.Proofs.Reading

/-!
# Blanks around a text

Blanks in front of a text and behind it are read as no tokens, so a text gives the same tokens when
they have been trimmed away.
-/

set_option autoImplicit false

namespace Reckoner

open Text

namespace Text

theorem isBlank_of_isSpace {c : Char} (space : isSpace c = true) : isBlank c = true := by
  simp [isBlank, space]

/-- What is trimmed away stands in front of what is left and behind it. -/
theorem exists_of_trimBy (member : Char → Bool) (characters : List Char) :
    ∃ front back, characters = front ++ trimBy member characters ++ back ∧
      (∀ c ∈ front, member c = true) ∧ ∀ c ∈ back, member c = true := by
  refine ⟨characters.takeWhile member,
    ((characters.dropWhile member).reverse.takeWhile member).reverse, ?_, ?_, ?_⟩
  · rw [trimBy, List.append_assoc, ← List.reverse_append, List.takeWhile_append_dropWhile,
      List.reverse_reverse, List.takeWhile_append_dropWhile]
  · exact List.all_eq_true.1 List.all_takeWhile
  · intro c inside
    exact List.all_eq_true.1 List.all_takeWhile c (List.mem_reverse.1 inside)

end Text

theorem isStop_of_isBlank {c : Char} (blank : isBlank c = true) : isStop c = true := by
  have noDigit := not_isDigit_of_isBlank blank
  have noStart : isWordStart c = false := by
    apply Bool.eq_false_iff.2
    intro start
    rw [not_isBlank_of_isWordStart start] at blank
    cases blank
  have noPart : isWordPart c = false := by
    apply Bool.eq_false_iff.2
    intro part
    simp only [isWordPart, noStart, Bool.false_or, Bool.and_eq_true, decide_eq_true_eq, Char.le_def,
      UInt32.le_iff_toNat_le] at part
    have ascii : 48 ≤ c.toNat ∧ c.toNat ≤ 57 := part
    simp only [isBlank, isSpace, isSeparator, Bool.or_eq_true, Bool.and_eq_true, decide_eq_true_eq,
      beq_iff_eq] at blank
    omega
  have noMark : c ≠ '.' ∧ c ≠ '+' ∧ c ≠ '-' := by
    refine ⟨?_, ?_, ?_⟩
    · rintro rfl
      exact absurd blank (by decide)
    · rintro rfl
      exact absurd blank (by decide)
    · rintro rfl
      exact absurd blank (by decide)
  simp [isStop, noDigit, noPart, noMark]

namespace Piece

theorem read_blanks {front : List Char} (blank : ∀ c ∈ front, isBlank c = true)
    (previous : Option Token) (rest : List Char) :
    read previous (front ++ rest) = read previous rest := by
  induction front with
  | nil => rfl
  | cons c front inner =>
    rw [List.cons_append, read_blank (blank c List.mem_cons_self)]
    exact inner fun other member => blank other (List.mem_cons_of_mem c member)

theorem read_append_blanks {back : List Char} (blank : ∀ c ∈ back, isBlank c = true)
    (previous : Option Token) (characters : List Char) :
    read previous (characters ++ back) = read previous characters := by
  have stops : Stops back :=
    fun c isHead => isStop_of_isBlank (blank c (List.mem_of_mem_head? isHead))
  have nothing (last : Option Token) : read last back = [] := by
    have all := read_blanks blank last []
    rwa [List.append_nil, read_nil] at all
  rw [read_append stops, nothing, List.append_nil]

theorem read_trimBy_isSpace (previous : Option Token) (characters : List Char) :
    read previous (trimBy isSpace characters) = read previous characters := by
  obtain ⟨front, back, whole, isFront, isBack⟩ := exists_of_trimBy isSpace characters
  calc
    read previous (trimBy isSpace characters)
        = read previous (front ++ trimBy isSpace characters) :=
      (read_blanks (fun c inside => isBlank_of_isSpace (isFront c inside)) ..).symm
    _ = read previous (front ++ trimBy isSpace characters ++ back) :=
      (read_append_blanks (fun c inside => isBlank_of_isSpace (isBack c inside)) ..).symm
    _ = read previous characters := congrArg (read previous) whole.symm

end Piece

theorem tokenize_trim (text : String) : tokenize (trim text) = tokenize text := by
  rw [Piece.tokenize_eq_read, Piece.tokenize_eq_read, trim, String.toList_ofList]
  exact Piece.read_trimBy_isSpace none text.toList

end Reckoner
