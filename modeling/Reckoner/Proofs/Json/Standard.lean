import Reckoner.Proofs.Json.Grammar
import Reckoner.Proofs.Json.Scanning

/-!
# Standard texts

The grammar of RFC 8259, which has no words but `null`, `true` and `false`. The grammar of the reader
has three constants more, and only these have a letter `N` or `I` outside of strings. A text that the
reader takes is standard if and only if no such letter stands outside of its strings.
-/

set_option autoImplicit false

namespace Reckoner.Json

open Text CodePoint

/-! ## The grammar -/

/-- What code points may be: a value, or what stands between the brackets of one. -/
inductive Shape where
  | value
  | elements
  | members

/-- Code points that RFC 8259 takes for a value, or for what stands between brackets. -/
inductive IsStandard : Shape → CodePoints → Prop where
  | literal {word : String} : word ∈ ["null", "true", "false"] → IsStandard .value word
  | number {numeral : Numeral} : IsNumeral numeral → IsStandard .value (numeral.chars.map char)
  | negative {numeral : Numeral} :
      IsNumeral numeral → IsStandard .value (char '-' :: numeral.chars.map char)
  | string {meant written : CodePoints} :
      WritesString meant written → IsStandard .value (char '"' :: written ++ [char '"'])
  | emptyArray {space : CodePoints} :
      IsSpace space → IsStandard .value (char '[' :: space ++ [char ']'])
  | array {points : CodePoints} :
      IsStandard .elements points → IsStandard .value (char '[' :: points ++ [char ']'])
  | emptyObject {space : CodePoints} :
      IsSpace space → IsStandard .value (char '\x7b' :: space ++ [char '\x7d'])
  | object {points : CodePoints} :
      IsStandard .members points → IsStandard .value (char '\x7b' :: points ++ [char '\x7d'])
  | lastElement {before points after : CodePoints} :
      IsSpace before → IsStandard .value points → IsSpace after →
      IsStandard .elements (before ++ points ++ after)
  | element {before points after others : CodePoints} :
      IsSpace before → IsStandard .value points → IsSpace after →
      IsStandard .elements others →
      IsStandard .elements (before ++ points ++ after ++ char ',' :: others)
  | lastMember {name written before behind between points after : CodePoints} :
      IsSpace before → WritesString name written → IsSpace behind → IsSpace between →
      IsStandard .value points → IsSpace after →
      IsStandard .members
        (before ++ char '"' :: written ++ char '"' :: behind ++ char ':' :: between ++ points ++
          after)
  | member {name written before behind between points after others : CodePoints} :
      IsSpace before → WritesString name written → IsSpace behind → IsSpace between →
      IsStandard .value points → IsSpace after →
      IsStandard .members others →
      IsStandard .members
        (before ++ char '"' :: written ++ char '"' :: behind ++ char ':' :: between ++ points ++
          after ++ char ',' :: others)

/-- A text that is valid JSON by RFC 8259: a value with white space around it. -/
def IsStandardText (text : String) : Prop :=
  ∃ before points after, IsSpace before ∧ IsStandard .value points ∧ IsSpace after ∧
    CodePoints.ofString text = before ++ points ++ after

/-! ## Letters outside of strings -/

/-- How often the letters `N` and `I` stand outside of strings, where code points begin within one or
outside. -/
def bareLetters : Bool → CodePoints → Nat
  | _, [] => 0
  | true, char '\\' :: _ :: rest => bareLetters true rest
  | true, point :: rest => if point = char '"' then bareLetters false rest else bareLetters true rest
  | false, point :: rest =>
    if point = char '"' then bareLetters true rest
    else (if point = char 'N' ∨ point = char 'I' then 1 else 0) + bareLetters false rest

/-- Code points with so many letters outside of strings, whatever follows them. -/
def Bare (points : CodePoints) (count : Nat) : Prop :=
  ∀ rest, bareLetters false (points ++ rest) = count + bareLetters false rest

/-- Code points among which no string begins and none of the letters stands. -/
def Quiet (points : CodePoints) : Prop :=
  ∀ point ∈ points, point ≠ char '"' ∧ point ≠ char 'N' ∧ point ≠ char 'I'

instance (points : CodePoints) : Decidable (Quiet points) :=
  List.decidableBAll (fun point => point ≠ char '"' ∧ point ≠ char 'N' ∧ point ≠ char 'I') points

theorem Bare.append {front back : CodePoints} {count more : Nat} (bareFront : Bare front count)
    (bareBack : Bare back more) : Bare (front ++ back) (count + more) := by
  intro rest
  rw [List.append_assoc, bareFront, bareBack, Nat.add_assoc]

theorem Bare.cons {point : CodePoint} {points : CodePoints} {count : Nat} (quiet : Quiet [point])
    (bare : Bare points count) : Bare (point :: points) count := by
  obtain ⟨noQuote, noN, noI⟩ := quiet point List.mem_cons_self
  intro rest
  rw [List.cons_append, bareLetters, if_neg noQuote, if_neg (not_or.2 ⟨noN, noI⟩), bare,
    Nat.zero_add]

theorem Bare.letter {point : CodePoint} {points : CodePoints} {count : Nat}
    (letter : point = char 'N' ∨ point = char 'I') (bare : Bare points count) :
    Bare (point :: points) (count + 1) := by
  have noQuote : point ≠ char '"' := by
    rcases letter with rfl | rfl
    · decide
    · decide
  intro rest
  rw [List.cons_append, bareLetters, if_neg noQuote, if_pos letter, bare, ← Nat.add_assoc,
    Nat.add_comm 1 count]

theorem Bare.nil : Bare [] 0 := fun _ => (Nat.zero_add _).symm

theorem Quiet.bare {points : CodePoints} (quiet : Quiet points) : Bare points 0 := by
  induction points with
  | nil => exact .nil
  | cons point rest inner =>
    refine .cons (fun other member => ?_) (inner fun other member => ?_)
    · rw [List.mem_singleton.1 member]
      exact quiet point List.mem_cons_self
    · exact quiet other (List.mem_cons_of_mem point member)

theorem IsSpace.quiet {space : CodePoints} (isSpace : IsSpace space) : Quiet space := by
  intro point member
  refine ⟨?_, ?_, ?_⟩
  all_goals
    rintro rfl
    exact absurd (isSpace _ member) (by decide)

theorem AreDigits.quiet {digits : List Char} (areDigits : AreDigits digits) :
    Quiet (digits.map char) := by
  refine List.forall_mem_map.2 fun c member => ⟨?_, ?_, ?_⟩
  all_goals
    rintro ⟨rfl⟩
    exact absurd (areDigits.ascii _ member) (by decide)

theorem Quiet.append {front back : CodePoints} (quietFront : Quiet front) (quietBack : Quiet back) :
    Quiet (front ++ back) :=
  fun point member => (List.mem_append.1 member).elim (quietFront point) (quietBack point)

theorem Quiet.cons {point : CodePoint} {points : CodePoints}
    (quiet : point ≠ char '"' ∧ point ≠ char 'N' ∧ point ≠ char 'I') (quietRest : Quiet points) :
    Quiet (point :: points) :=
  List.forall_mem_cons.2 ⟨quiet, quietRest⟩

theorem IsExponent.quiet {exponent : Exponent} (isExponent : IsExponent exponent) :
    Quiet (exponent.chars.map char) := by
  have mark : char exponent.mark ≠ char '"' ∧ char exponent.mark ≠ char 'N' ∧
      char exponent.mark ≠ char 'I' := by
    rcases isExponent.mark with small | capital
    · rw [small]
      decide
    · rw [capital]
      decide
  have sign : Quiet ((exponent.sign.map Sign.char).toList.map char) := by
    refine List.forall_mem_map.2 fun c member => ?_
    simp only [Option.mem_toList, Option.map_eq_some_iff] at member
    obtain ⟨sign, -, rfl⟩ := member
    cases sign with
    | plus => decide
    | minus => decide
  rw [Exponent.chars, List.map_append, List.map_cons]
  exact (Quiet.cons mark sign).append isExponent.digits.quiet

theorem IsNumeral.quiet {numeral : Numeral} (isNumeral : IsNumeral numeral) :
    Quiet (numeral.chars.map char) := by
  have fraction : Quiet (((numeral.fraction.map ('.' :: ·)).getD []).map char) := by
    cases digits : numeral.fraction with
    | none => exact nofun
    | some digits' => exact .cons (by decide) (isNumeral.fraction digits' digits).quiet
  have exponent : Quiet (((numeral.exponent.map Exponent.chars).getD []).map char) := by
    cases shown : numeral.exponent with
    | none => exact nofun
    | some exponent => exact (isNumeral.exponent exponent shown).quiet
  rw [Numeral.chars, List.map_append, List.map_append]
  exact (isNumeral.whole.digits.quiet.append fraction).append exponent

/-! ### Strings -/

theorem bareLetters_plain {point : CodePoint} (noQuote : point ≠ char '"')
    (noBackslash : point ≠ char '\\') (rest : CodePoints) :
    bareLetters true (point :: rest) = bareLetters true rest := by
  rw [bareLetters, if_neg noQuote]
  exact fun _ _ backslash _ => noBackslash backslash

theorem WritesUnit.bareLetters {unit : Nat} {digits : CodePoints} (writes : WritesUnit unit digits)
    (rest : CodePoints) : bareLetters true (digits ++ rest) = bareLetters true rest := by
  have plain {c : Char} {digit : Nat} (found : hexValue? c = some digit) (others : CodePoints) :
      Json.bareLetters true (char c :: others) = Json.bareLetters true others := by
    refine bareLetters_plain ?_ ?_ others
    all_goals
      rintro ⟨rfl⟩
      cases found
  cases writes with
  | digits first second third fourth =>
    simp only [List.cons_append, List.nil_append, plain first, plain second, plain third,
      plain fourth]

theorem WritesString.bareLetters {meant written : CodePoints} (writes : WritesString meant written)
    (rest : CodePoints) : bareLetters true (written ++ char '"' :: rest) = bareLetters false rest := by
  induction writes with
  | nil => rfl
  | plain noQuote noBackslash _ _ inner =>
    rw [List.cons_append, bareLetters_plain noQuote noBackslash, inner]
  | escape _ _ inner => exact inner
  | unit unit _ _ inner =>
    simp only [List.cons_append, List.append_assoc, Json.bareLetters, unit.bareLetters, inner]
  | pair high _ low _ _ inner =>
    simp only [List.cons_append, List.append_assoc, Json.bareLetters, high.bareLetters,
      low.bareLetters, inner]

/-- A string between its quotes. -/
theorem WritesString.bare {meant written : CodePoints} (writes : WritesString meant written) :
    Bare (char '"' :: written ++ [char '"']) 0 := by
  intro rest
  rw [List.cons_append, List.cons_append, List.append_assoc, List.singleton_append,
    Json.bareLetters, if_pos rfl, writes.bareLetters, Nat.zero_add]

/-! ## Standard texts and texts that are read -/

/-- What stands between brackets, with the brackets. -/
theorem Bare.between {opening closing : CodePoint} {points : CodePoints} {count : Nat}
    (quietOpening : Quiet [opening]) (quietClosing : Quiet [closing])
    (bare : Bare points count) : Bare (opening :: points ++ [closing]) count :=
  (bare.cons quietOpening).append quietClosing.bare

/-- A part with the white space around it. -/
theorem Bare.spaced {before points after : CodePoints} {count : Nat} (isBefore : IsSpace before)
    (bare : Bare points count) (isAfter : IsSpace after) :
    Bare (before ++ points ++ after) count := by
  have whole := (isBefore.quiet.bare.append bare).append isAfter.quiet.bare
  rwa [Nat.zero_add] at whole

/-- A name with a colon and with white space around both. -/
theorem WritesString.bare_name {name written before behind between : CodePoints}
    (writes : WritesString name written) (isBefore : IsSpace before) (isBehind : IsSpace behind)
    (isBetween : IsSpace between) :
    Bare (before ++ char '"' :: written ++ char '"' :: behind ++ char ':' :: between) 0 := by
  have colon : Quiet (char ':' :: between) := .cons (by decide) isBetween.quiet
  have whole := (isBefore.quiet.bare.append writes.bare).append
    (isBehind.quiet.bare.append colon.bare)
  simpa using whole

/-- No letter stands outside of the strings of a standard text. -/
theorem IsStandard.bare {shape : Shape} {points : CodePoints}
    (standard : IsStandard shape points) : Bare points 0 := by
  induction standard with
  | literal member =>
    simp only [List.mem_cons, List.not_mem_nil, or_false] at member
    rcases member with rfl | rfl | rfl
    all_goals exact Quiet.bare (by decide)
  | number isNumeral => exact isNumeral.quiet.bare
  | negative isNumeral => exact .cons (by decide) isNumeral.quiet.bare
  | string writes => exact writes.bare
  | emptyArray isSpace => exact .between (by decide) (by decide) isSpace.quiet.bare
  | array _ inner => exact .between (by decide) (by decide) inner
  | emptyObject isSpace => exact .between (by decide) (by decide) isSpace.quiet.bare
  | object _ inner => exact .between (by decide) (by decide) inner
  | lastElement before _ after inner => exact inner.spaced before after
  | element before _ after _ inner others =>
    exact (inner.spaced before after).append (.cons (by decide) others)
  | lastMember before name behind between _ after inner =>
    exact ((name.bare_name before behind between).append inner).append after.quiet.bare
  | member before name behind between _ after _ inner others =>
    exact (((name.bare_name before behind between).append inner).append after.quiet.bare).append
      (.cons (by decide) others)

/-! ### The literals beyond the standard -/

theorem bare_notANumber : Bare "NaN" 2 := by
  show Bare [char 'N', char 'a', char 'N'] 2
  exact .letter (.inl rfl) (.cons (by decide) (.letter (.inl rfl) .nil))

theorem bare_infinity : Bare "Infinity" 1 := by
  show Bare (char 'I' :: ("nfinity" : CodePoints)) 1
  exact .letter (.inr rfl) (Quiet.bare (by decide))

theorem bare_negativeInfinity : Bare "-Infinity" 1 := by
  show Bare (char '-' :: ("Infinity" : CodePoints)) 1
  exact .cons (by decide) bare_infinity

def Part.shape : Part → Shape
  | value _ => .value
  | elements _ => .elements
  | members _ => .members

theorem mem_words_of_literal {word : String} {value : Foreign}
    (literal : (word, value) ∈ literals) : word ∈ ["null", "true", "false"] := by
  have each : ∀ entry ∈ literals, entry.1 ∈ ["null", "true", "false"] := by decide
  exact each _ literal

/-- A constant has one of the letters. -/
theorem exists_bare_constant {word : String} {value : Foreign}
    (constant : (word, value) ∈ constants) :
    ∃ count, Bare word count ∧ count ≠ 0 := by
  simp only [constants, List.mem_cons, List.not_mem_nil, or_false, Prod.mk.injEq] at constant
  rcases constant with ⟨rfl, -⟩ | ⟨rfl, -⟩ | ⟨rfl, -⟩
  · exact ⟨2, bare_notANumber, by decide⟩
  · exact ⟨1, bare_infinity, by decide⟩
  · exact ⟨1, bare_negativeInfinity, by decide⟩

theorem WritesNumber.exists_numeral {negative : Bool} {value : Foreign} {characters : List Char}
    (writes : WritesNumber negative value characters) :
    ∃ numeral, IsNumeral numeral ∧ characters = numeral.chars := by
  cases writes with
  | whole isWhole _ =>
    exact ⟨⟨characters, none, none⟩, ⟨isWhole, nofun, nofun⟩, by simp [Numeral.chars]⟩
  | double isNumeral _ => exact ⟨_, isNumeral, rfl⟩

/-- What the reader takes is standard if none of the letters stands outside of strings. -/
theorem Writes.exists_bare {levels : Nat} {part : Part} {points : CodePoints}
    (writes : Writes levels part points) :
    ∃ count, Bare points count ∧ (count = 0 → IsStandard part.shape points) := by
  induction writes with
  | literal literal =>
    have standard : IsStandard .value _ := .literal (mem_words_of_literal literal)
    exact ⟨0, standard.bare, fun _ => standard⟩
  | constant constant =>
    obtain ⟨count, bare, some⟩ := exists_bare_constant constant
    exact ⟨count, bare, fun none => absurd none some⟩
  | number writes =>
    obtain ⟨numeral, isNumeral, rfl⟩ := writes.exists_numeral
    exact ⟨0, isNumeral.quiet.bare, fun _ => .number isNumeral⟩
  | negative writes =>
    obtain ⟨numeral, isNumeral, rfl⟩ := writes.exists_numeral
    exact ⟨0, .cons (by decide) isNumeral.quiet.bare, fun _ => .negative isNumeral⟩
  | string writes => exact ⟨0, writes.bare, fun _ => .string writes⟩
  | emptyArray isSpace =>
    exact ⟨0, .between (by decide) (by decide) isSpace.quiet.bare, fun _ => .emptyArray isSpace⟩
  | array _ inner =>
    obtain ⟨count, bare, standard⟩ := inner
    exact ⟨count, bare.between (by decide) (by decide), fun none => .array (standard none)⟩
  | emptyObject isSpace =>
    exact ⟨0, .between (by decide) (by decide) isSpace.quiet.bare, fun _ => .emptyObject isSpace⟩
  | object _ inner =>
    obtain ⟨count, bare, standard⟩ := inner
    exact ⟨count, bare.between (by decide) (by decide), fun none => .object (standard none)⟩
  | lastElement before _ after inner =>
    obtain ⟨count, bare, standard⟩ := inner
    exact ⟨count, bare.spaced before after, fun none => .lastElement before (standard none) after⟩
  | element before _ after _ inner others =>
    obtain ⟨count, bare, standard⟩ := inner
    obtain ⟨more, bareOthers, standardOthers⟩ := others
    refine ⟨count + more, (bare.spaced before after).append (bareOthers.cons (by decide)),
      fun none => ?_⟩
    obtain ⟨noCount, noMore⟩ := Nat.add_eq_zero_iff.1 none
    exact .element before (standard noCount) after (standardOthers noMore)
  | lastMember before name behind between _ after inner =>
    obtain ⟨count, bare, standard⟩ := inner
    have whole := ((name.bare_name before behind between).append bare).append after.quiet.bare
    rw [Nat.zero_add, Nat.add_zero] at whole
    exact ⟨count, whole,
      fun none => .lastMember before name behind between (standard none) after⟩
  | member before name behind between _ after _ inner others =>
    obtain ⟨count, bare, standard⟩ := inner
    obtain ⟨more, bareOthers, standardOthers⟩ := others
    have whole := ((name.bare_name before behind between).append bare).append after.quiet.bare
    rw [Nat.zero_add, Nat.add_zero] at whole
    refine ⟨count + more, whole.append (bareOthers.cons (by decide)), fun none => ?_⟩
    obtain ⟨noCount, noMore⟩ := Nat.add_eq_zero_iff.1 none
    exact .member before name behind between (standard noCount) after (standardOthers noMore)

/-- A text that is read is valid JSON if and only if none of the letters stands outside of its
strings. -/
theorem isStandardText_iff {levels count : Nat} {value : Foreign} {text : String}
    (isText : IsText levels value text) (bare : Bare text count) :
    IsStandardText text ↔ count = 0 := by
  -- A text has one count of such letters, whichever grammar it was counted along.
  have same {other : Nat} (bareToo : Bare text other) : other = count :=
    Nat.add_right_cancel ((bareToo []).symm.trans (bare []))
  constructor
  · rintro ⟨before, points, after, isBefore, standard, isAfter, whole⟩
    have none := standard.bare.spaced isBefore isAfter
    rw [← whole] at none
    exact (same none).symm
  · intro none
    obtain ⟨before, points, after, isBefore, writes, isAfter, whole⟩ := isText
    obtain ⟨other, bareToo, standard⟩ := writes.exists_bare
    have spaced := bareToo.spaced isBefore isAfter
    rw [← whole] at spaced
    exact ⟨before, points, after, isBefore, standard ((same spaced).trans none), isAfter, whole⟩

end Reckoner.Json
