import Reckoner.Proofs.Json.Scanning

/-!
# What is read of a JSON text

A text is read as a value if and only if the grammar says that it is this value, with no more levels
than the limit. A text that is refused as malformed is no value with any number of levels, and one
that is refused for its levels may be a value or not.
-/

set_option autoImplicit false

namespace Reckoner.Json

open Text CodePoint

variable {levels bound : Nat}

/-! ## White space -/

theorem isSpace_nil : IsSpace [] := nofun

theorem exists_of_skipSpace (points : CodePoints) :
    ∃ space, IsSpace space ∧ points = space ++ skipSpace points :=
  ⟨points.takeWhile (·.passes isJsonSpace), List.all_eq_true.1 List.all_takeWhile,
    List.takeWhile_append_dropWhile.symm⟩

theorem skipSpace_append {space : CodePoints} (isSpace : IsSpace space) (rest : CodePoints) :
    skipSpace (space ++ rest) = skipSpace rest :=
  List.dropWhile_append_of_pos isSpace

theorem skipSpace_cons {c : Char} (visible : isJsonSpace c = false) (rest : CodePoints) :
    skipSpace (char c :: rest) = char c :: rest :=
  List.dropWhile_cons_of_neg (by rw [passes, visible]; exact Bool.false_ne_true)

theorem IsSpace.append {space more : CodePoints} (isSpace : IsSpace space) (isMore : IsSpace more) :
    IsSpace (space ++ more) := by
  intro point member
  rcases List.mem_append.1 member with inside | inside
  · exact isSpace point inside
  · exact isMore point inside

theorem endsToken_nil : EndsToken [] := nofun

theorem endsToken_cons {point : CodePoint} (noPart : point.passes isTokenPart = false)
    (rest : CodePoints) : EndsToken (point :: rest) := by
  rintro other ⟨⟩
  exact noPart

theorem passes_isTokenPart_of_isJsonSpace {point : CodePoint}
    (space : point.passes isJsonSpace = true) : point.passes isTokenPart = false := by
  cases point with
  | surrogate code noCharacter => rfl
  | char c =>
    simp only [passes, isJsonSpace, Bool.or_eq_true, decide_eq_true_eq] at space
    rcases space with ((rfl | rfl) | rfl) | rfl
    all_goals decide

/-- Behind white space a token ends as well as without it. -/
theorem IsSpace.endsToken {space rest : CodePoints} (isSpace : IsSpace space)
    (ends : EndsToken rest) : EndsToken (space ++ rest) := by
  cases space with
  | nil => exact ends
  | cons point others =>
    exact endsToken_cons (passes_isTokenPart_of_isJsonSpace (isSpace point List.mem_cons_self)) _

theorem Writes.elements_after_space {elements : List Foreign} {space points : CodePoints}
    (isSpace : IsSpace space) (writes : Writes levels (.elements elements) points) :
    Writes levels (.elements elements) (space ++ points) := by
  cases writes with
  | lastElement before value after =>
    rw [← List.append_assoc, ← List.append_assoc]
    exact .lastElement (isSpace.append before) value after
  | element before value after others =>
    rw [← List.append_assoc, ← List.append_assoc, ← List.append_assoc]
    exact .element (isSpace.append before) value after others

theorem Writes.members_after_space {pairs : Members CodePoints} {space points : CodePoints}
    (isSpace : IsSpace space) (writes : Writes levels (.members pairs) points) :
    Writes levels (.members pairs) (space ++ points) := by
  cases writes with
  | lastMember before name behind between value after =>
    simp only [← List.append_assoc]
    exact .lastMember (isSpace.append before) name behind between value after
  | member before name behind between value after others =>
    simp only [← List.append_assoc]
    exact .member (isSpace.append before) name behind between value after others

/-! ## What is read is written so -/

/-- What is read with a bound on the recursion is written so. -/
structure ReadsWritten (bound : Nat) : Prop where
  value : ∀ {levels points value rest},
    readValue levels bound points = .ok (value, rest) →
      ∃ written, Writes levels (.value value) written ∧ points = written ++ rest
  elements : ∀ {levels read points elements rest},
    readElements levels bound read points = .ok (elements, rest) →
      ∃ others written, Writes levels (.elements others) written ∧
        points = written ++ char ']' :: rest ∧ elements = read.reverse ++ others
  members : ∀ {levels read points members rest},
    readMembers levels bound read points = .ok (members, rest) →
      ∃ pairs written, Writes levels (.members pairs) written ∧
        points = written ++ char '\x7d' :: rest ∧
        members = pairs.foldl (fun members pair => members.set pair.1 pair.2) read

theorem eq_some_of_orMalformed {Value : Type} {found : Option Value} {value : Value}
    (ok : orMalformed found = .ok value) : found = some value := by
  cases found with
  | none => cases ok
  | some other => rw [Except.ok.inj ok]

theorem exists_of_map {Value Result : Type} {found : Except ReadError Value}
    {change : Value → Result} {result : Result} (ok : found.map change = .ok result) :
    ∃ value, found = .ok value ∧ change value = result := by
  cases found with
  | error error => cases ok
  | ok value => exact ⟨value, rfl, Except.ok.inj ok⟩

theorem exists_of_readNumeral {characters rest : List Char} {value : Foreign}
    (found : readNumeral characters = some (value, rest)) :
    ∃ written, Writes levels (.value value) (written.map char) ∧ characters = written ++ rest := by
  unfold readNumeral at found
  split at found
  · obtain ⟨written, writes, rfl⟩ := exists_of_readUnsigned found
    exact ⟨'-' :: written, .negative writes, rfl⟩
  · obtain ⟨written, writes, rfl⟩ := exists_of_readUnsigned found
    exact ⟨written, .number writes, rfl⟩

namespace ReadsWritten

variable (inner : ReadsWritten bound)

include inner

theorem value_succ {points rest : CodePoints} {value : Foreign}
    (found : readValue levels (bound + 1) points = .ok (value, rest)) :
    ∃ written, Writes levels (.value value) written ∧ points = written ++ rest := by
  unfold readValue at found
  split at found
  · rename_i tail
    obtain ⟨⟨text, behind⟩, isString, same⟩ :=
      Option.map_eq_some_iff.1 (eq_some_of_orMalformed found)
    obtain ⟨rfl, rfl⟩ := Prod.mk.inj same
    obtain ⟨written, writes, rfl⟩ := exists_of_readString isString
    exact ⟨_, .string writes, by simp⟩
  · rename_i tail
    obtain ⟨space, isSpace, isTail⟩ := exists_of_skipSpace tail
    split at found
    · cases found
    · split at found
      · rename_i behind isEnd
        obtain ⟨rfl, rfl⟩ := Prod.mk.inj (Except.ok.inj found)
        rw [isTail, isEnd]
        exact ⟨_, .emptyArray isSpace, by simp⟩
      · obtain ⟨⟨elements, behind⟩, isArray, same⟩ := exists_of_map found
        obtain ⟨rfl, rfl⟩ := Prod.mk.inj same
        obtain ⟨others, written, writes, isWritten, rfl⟩ := inner.elements isArray
        rw [isTail, isWritten]
        exact ⟨_, .array (writes.elements_after_space isSpace), by simp⟩
  · rename_i tail
    obtain ⟨space, isSpace, isTail⟩ := exists_of_skipSpace tail
    split at found
    · cases found
    · split at found
      · rename_i behind isEnd
        obtain ⟨rfl, rfl⟩ := Prod.mk.inj (Except.ok.inj found)
        rw [isTail, isEnd]
        exact ⟨_, .emptyObject isSpace, by simp⟩
      · obtain ⟨⟨members, behind⟩, isObject, same⟩ := exists_of_map found
        obtain ⟨rfl, rfl⟩ := Prod.mk.inj same
        obtain ⟨pairs, written, writes, isWritten, rfl⟩ := inner.members isObject
        rw [isTail, isWritten]
        exact ⟨_, .object (writes.members_after_space isSpace), by simp⟩
  · split at found
    · rename_i result isConstant
      split at found
      · cases found
      · rename_i some
        obtain ⟨levels, rfl⟩ := Nat.exists_eq_succ_of_ne_zero some
        rw [Except.ok.inj found] at isConstant
        obtain ⟨token, others, isWord, isWritten⟩ := exists_of_onToken isConstant
        obtain ⟨word, constant, same⟩ := exists_of_readWord isWord
        exact ⟨_, .constant constant, isWritten _ same⟩
    · rcases Option.or_eq_some_iff.1 (eq_some_of_orMalformed found) with isLiteral | ⟨-, isNumber⟩
      · obtain ⟨token, others, isWord, isWritten⟩ := exists_of_onToken isLiteral
        obtain ⟨word, literal, same⟩ := exists_of_readWord isWord
        exact ⟨_, .literal literal, isWritten _ same⟩
      · obtain ⟨token, others, isNumeral, isWritten⟩ := exists_of_onToken isNumber
        obtain ⟨written, writes, same⟩ := exists_of_readNumeral isNumeral
        exact ⟨_, writes, isWritten _ same⟩

theorem elements_succ {read : List Foreign} {points rest : CodePoints} {elements : List Foreign}
    (found : readElements levels (bound + 1) read points = .ok (elements, rest)) :
    ∃ others written, Writes levels (.elements others) written ∧
      points = written ++ char ']' :: rest ∧ elements = read.reverse ++ others := by
  unfold readElements at found
  split at found
  · cases found
  · rename_i element behind isElement
    obtain ⟨written, writes, rfl⟩ := inner.value isElement
    obtain ⟨space, isSpace, isBehind⟩ := exists_of_skipSpace behind
    split at found
    · rename_i others isComma
      obtain ⟨between, isBetween, isOthers⟩ := exists_of_skipSpace others
      obtain ⟨later, more, writesMore, isMore, rfl⟩ := inner.elements found
      rw [isBehind, isComma, isOthers, isMore]
      exact ⟨element :: later, _, .element isSpace_nil writes isSpace
        (writesMore.elements_after_space isBetween), by simp, by simp⟩
    · rename_i others isEnd
      obtain ⟨rfl, rfl⟩ := Prod.mk.inj (Except.ok.inj found)
      rw [isBehind, isEnd]
      exact ⟨[element], _, .lastElement isSpace_nil writes isSpace, by simp, by simp⟩
    · cases found

theorem members_succ {read members : Members CodePoints} {points rest : CodePoints}
    (found : readMembers levels (bound + 1) read points = .ok (members, rest)) :
    ∃ pairs written, Writes levels (.members pairs) written ∧
      points = written ++ char '\x7d' :: rest ∧
      members = pairs.foldl (fun members pair => members.set pair.1 pair.2) read := by
  unfold readMembers at found
  split at found
  · rename_i tail
    split at found
    · cases found
    · rename_i name afterName isName
      obtain ⟨written, writesName, rfl⟩ := exists_of_readString isName
      obtain ⟨behind, isBehind, same⟩ := exists_of_skipSpace afterName
      split at found
      · rename_i afterColon isColon
        obtain ⟨between, isBetween, isValueText⟩ := exists_of_skipSpace afterColon
        split at found
        · cases found
        · rename_i value afterValue isValue
          obtain ⟨shown, writes, isShown⟩ := inner.value isValue
          obtain ⟨after, isAfter, isAfterValue⟩ := exists_of_skipSpace afterValue
          split at found
          · rename_i others isComma
            obtain ⟨space, isSpace, isOthers⟩ := exists_of_skipSpace others
            obtain ⟨later, more, writesMore, isMore, rfl⟩ := inner.members found
            rw [same, isColon, isValueText, isShown, isAfterValue, isComma, isOthers, isMore]
            exact ⟨(name, value) :: later, _,
              .member isSpace_nil writesName isBehind isBetween writes isAfter
                (writesMore.members_after_space isSpace), by simp, rfl⟩
          · rename_i others isEnd
            obtain ⟨rfl, rfl⟩ := Prod.mk.inj (Except.ok.inj found)
            rw [same, isColon, isValueText, isShown, isAfterValue, isEnd]
            exact ⟨[(name, value)], _,
              .lastMember isSpace_nil writesName isBehind isBetween writes isAfter,
              by simp, rfl⟩
          · cases found
      · cases found
  · cases found

end ReadsWritten

theorem readsWritten (bound : Nat) : ReadsWritten bound := by
  induction bound with
  | zero => exact ⟨nofun, nofun, nofun⟩
  | succ bound inner => exact ⟨inner.value_succ, inner.elements_succ, inner.members_succ⟩

/-! ## What is written is read -/

/-- A part that is written so is read with a bound on the recursion that is twice its length, and
one more for elements and members. -/
def IsRead (levels : Nat) : Part → CodePoints → Prop
  | .value value, points => ∀ {rest bound}, EndsToken rest → 2 * points.length ≤ bound →
      readValue levels bound (points ++ rest) = .ok (value, rest)
  | .elements elements, points => ∀ {read rest bound}, 2 * points.length < bound →
      readElements levels bound read (skipSpace (points ++ char ']' :: rest)) =
        .ok (read.reverse ++ elements, rest)
  | .members pairs, points => ∀ {read rest bound}, 2 * points.length < bound →
      readMembers levels bound read (skipSpace (points ++ char '\x7d' :: rest)) =
        .ok (pairs.foldl (fun members pair => members.set pair.1 pair.2) read, rest)

theorem endsToken_of_mem {c : Char} (member : c ∈ [',', ']', '\x7d']) (rest : CodePoints) :
    EndsToken (char c :: rest) := by
  refine endsToken_cons ?_ rest
  simp only [List.mem_cons, List.not_mem_nil, or_false] at member
  rcases member with rfl | rfl | rfl
  all_goals decide

/-- The first code point of a value is not white space and does not close a bracket. -/
def BeginsValue (points : CodePoints) : Prop :=
  ∃ c others, points = char c :: others ∧ isJsonSpace c = false ∧ c ≠ ']' ∧ c ≠ '\x7d'

/-- A token is no white space, no bracket and no quotation mark. -/
theorem ne_of_isTokenPart {c : Char} (part : isTokenPart c = true) :
    isJsonSpace c = false ∧ c ∉ ['"', '[', ']', '\x7b', '\x7d'] := by
  refine ⟨Bool.eq_false_iff.2 fun space => ?_, fun member => ?_⟩
  · have noPart := @passes_isTokenPart_of_isJsonSpace (char c) space
    rw [passes, part] at noPart
    cases noPart
  · simp only [List.mem_cons, List.not_mem_nil, or_false] at member
    rcases member with rfl | rfl | rfl | rfl | rfl
    all_goals exact absurd part (by decide)

theorem beginsValue_token {token : List Char} (nonempty : token ≠ []) (parts : AreTokenParts token) :
    BeginsValue (token.map char) := by
  obtain ⟨c, others, rfl⟩ := List.exists_cons_of_ne_nil nonempty
  obtain ⟨visible, noMark⟩ := ne_of_isTokenPart (parts c List.mem_cons_self)
  refine ⟨c, _, rfl, visible, ?_, ?_⟩
  all_goals
    rintro rfl
    exact noMark (by decide)

theorem ne_nil_of_mem {words : List (String × Foreign)}
    (isList : words = literals ∨ words = constants) {word : String} {value : Foreign}
    (member : (word, value) ∈ words) : word.toList ≠ [] := by
  have each : ∀ entry ∈ words, entry.1.toList ≠ [] := by
    rcases isList with rfl | rfl
    · decide +kernel
    · decide +kernel
  exact each _ member

theorem WritesNumber.exists_head {negative : Bool} {value : Foreign} {characters : List Char}
    (writes : WritesNumber negative value characters) :
    ∃ first others, characters = first :: others ∧ isAsciiDigit first = true := by
  cases writes with
  | whole isWhole short =>
    obtain ⟨first, others, rfl⟩ := List.exists_cons_of_ne_nil isWhole.digits.nonempty
    exact ⟨first, others, rfl, isWhole.digits.ascii first List.mem_cons_self⟩
  | @double numeral isNumeral isDouble =>
    have isWhole := isNumeral.whole
    obtain ⟨whole, fraction, exponent⟩ := numeral
    obtain ⟨first, others, rfl⟩ := List.exists_cons_of_ne_nil isWhole.digits.nonempty
    exact ⟨first, _, rfl, isWhole.digits.ascii first List.mem_cons_self⟩

/-- A token that is read as a number, with or without a sign. -/
structure IsNumberToken (value : Foreign) (token : List Char) : Prop where
  nonempty : token ≠ []
  parts : AreTokenParts token
  noConstant : readWord constants token = none
  noLiteral : readWord literals token = none
  read : readNumeral token = some (value, [])

theorem WritesNumber.isNumberToken {value : Foreign} {characters : List Char}
    (writes : WritesNumber false value characters) : IsNumberToken value characters := by
  have parts := writes.areTokenParts
  have found := readUnsigned_append writes stops_nil
  obtain ⟨first, others, rfl, digit⟩ := writes.exists_head
  refine ⟨List.cons_ne_nil first others, parts, (readWord_of_isAsciiDigit (.inr rfl) digit _).1,
    (readWord_of_isAsciiDigit (.inl rfl) digit _).1, ?_⟩
  rw [List.append_nil] at found
  rw [readNumeral]
  · exact found
  · rintro rest ⟨rfl, -⟩
    exact absurd digit (by decide)

theorem WritesNumber.isNumberToken_negative {value : Foreign} {characters : List Char}
    (writes : WritesNumber true value characters) : IsNumberToken value ('-' :: characters) := by
  have parts := writes.areTokenParts
  have found := readUnsigned_append writes stops_nil
  obtain ⟨first, others, rfl, digit⟩ := writes.exists_head
  refine ⟨List.cons_ne_nil _ _, List.forall_mem_cons.2 ⟨rfl, parts⟩,
    (readWord_of_isAsciiDigit (.inr rfl) digit _).2,
    (readWord_of_isAsciiDigit (.inl rfl) digit _).2, ?_⟩
  rw [List.append_nil] at found
  exact found

theorem Writes.beginsValue {value : Foreign} {points : CodePoints}
    (writes : Writes levels (.value value) points) : BeginsValue points := by
  cases writes with
  | literal literal =>
    exact beginsValue_token (ne_nil_of_mem (.inl rfl) literal)
      (areTokenParts_of_mem (.inl rfl) literal)
  | constant constant =>
    exact beginsValue_token (ne_nil_of_mem (.inr rfl) constant)
      (areTokenParts_of_mem (.inr rfl) constant)
  | number writes =>
    exact beginsValue_token writes.isNumberToken.nonempty writes.isNumberToken.parts
  | negative writes => exact ⟨'-', _, rfl, by decide⟩
  | string writes => exact ⟨'"', _, rfl, by decide⟩
  | emptyArray isSpace => exact ⟨'[', _, rfl, by decide⟩
  | array writes => exact ⟨'[', _, rfl, by decide⟩
  | emptyObject isSpace => exact ⟨'\x7b', _, rfl, by decide⟩
  | object writes => exact ⟨'\x7b', _, rfl, by decide⟩

/-- What is read in front of a rest at which the token ends. -/
theorem readValue_token {token : List Char} (nonempty : token ≠ []) (parts : AreTokenParts token)
    {rest : CodePoints} (ends : EndsToken rest) :
    readValue levels (bound + 1) (token.map char ++ rest) =
      match (readWord constants token).map fun found => (found.1, found.2.map char ++ rest) with
      | some found => if levels = 0 then .error (.tooDeep .constant) else .ok found
      | none =>
        orMalformed
          (((readWord literals token).map fun found => (found.1, found.2.map char ++ rest)).or
            ((readNumeral token).map fun found => (found.1, found.2.map char ++ rest))) := by
  rw [← onToken_append parts ends, ← onToken_append parts ends, ← onToken_append parts ends]
  obtain ⟨c, others, rfl⟩ := List.exists_cons_of_ne_nil nonempty
  obtain ⟨-, noMark⟩ := ne_of_isTokenPart (parts c List.mem_cons_self)
  rw [List.map_cons, List.cons_append, readValue]
  all_goals first
    | rfl
    | rintro tail ⟨rfl, -⟩
      exact noMark (by decide)

theorem readValue_literal {word : String} {value : Foreign} (literal : (word, value) ∈ literals)
    {rest : CodePoints} (ends : EndsToken rest) :
    readValue levels (bound + 1) ((word : CodePoints) ++ rest) = .ok (value, rest) := by
  have found := readWord_literal literal
  rw [CodePoints.ofString, readValue_token (ne_nil_of_mem (.inl rfl) literal)
    (areTokenParts_of_mem (.inl rfl) literal) ends, found.1, found.2]
  rfl

theorem readValue_constant {word : String} {value : Foreign} (constant : (word, value) ∈ constants)
    {rest : CodePoints} (ends : EndsToken rest) :
    readValue (levels + 1) (bound + 1) ((word : CodePoints) ++ rest) = .ok (value, rest) := by
  rw [CodePoints.ofString, readValue_token (ne_nil_of_mem (.inr rfl) constant)
    (areTokenParts_of_mem (.inr rfl) constant) ends, readWord_constant constant]
  rfl

theorem IsNumberToken.readValue {value : Foreign} {token : List Char}
    (isToken : IsNumberToken value token) {rest : CodePoints} (ends : EndsToken rest) :
    readValue levels (bound + 1) (token.map char ++ rest) = .ok (value, rest) := by
  rw [readValue_token isToken.nonempty isToken.parts ends, isToken.noConstant, isToken.noLiteral,
    isToken.read]
  rfl

theorem eq_nil_of_map_le {token : List Char} (le : 2 * (token.map char).length ≤ 0) : token = [] := by
  rw [List.length_map] at le
  exact List.length_eq_zero_iff.1 (by omega)

theorem skipSpace_before {space points : CodePoints} (isSpace : IsSpace space)
    (begins : BeginsValue points) (rest : CodePoints) :
    skipSpace (space ++ (points ++ rest)) = points ++ rest := by
  obtain ⟨first, others, rfl, visible, -⟩ := begins
  rw [skipSpace_append isSpace, List.cons_append, skipSpace_cons visible]

theorem Writes.elements_head {elements : List Foreign} {points : CodePoints}
    (writes : Writes levels (.elements elements) points) (rest : CodePoints) :
    ∃ first others, skipSpace (points ++ rest) = char first :: others ∧ first ≠ ']' := by
  have front {before inside : CodePoints} (isSpace : IsSpace before) (begins : BeginsValue inside)
      (after : CodePoints) :
      ∃ first others, skipSpace (before ++ (inside ++ after)) = char first :: others ∧
        first ≠ ']' := by
    rw [skipSpace_before isSpace begins]
    obtain ⟨first, others, rfl, -, noEnd, -⟩ := begins
    exact ⟨first, _, rfl, noEnd⟩
  cases writes with
  | lastElement before value after =>
    simp only [List.append_assoc]
    exact front before value.beginsValue _
  | element before value after others =>
    simp only [List.append_assoc]
    exact front before value.beginsValue _

theorem Writes.members_head {pairs : Members CodePoints} {points : CodePoints}
    (writes : Writes levels (.members pairs) points) (rest : CodePoints) :
    ∃ others, skipSpace (points ++ rest) = char '"' :: others := by
  cases writes with
  | lastMember before name behind between value after =>
    simp only [List.append_assoc, List.cons_append]
    exact ⟨_, by rw [skipSpace_append before, skipSpace_cons rfl]⟩
  | member before name behind between value after others =>
    simp only [List.append_assoc, List.cons_append]
    exact ⟨_, by rw [skipSpace_append before, skipSpace_cons rfl]⟩

theorem readMembers_name {read : Members CodePoints} {name written : CodePoints}
    (writes : WritesString name written) {behind between points tail : CodePoints}
    (isBehind : IsSpace behind) (isBetween : IsSpace between) (begins : BeginsValue points)
    {value : Foreign} (found : readValue levels bound (points ++ tail) = .ok (value, tail)) :
    readMembers levels (bound + 1) read
        (char '"' :: (written ++ char '"' :: (behind ++ char ':' :: (between ++ (points ++ tail))))) =
      match skipSpace tail with
      | char ',' :: rest => readMembers levels bound (read.set name value) (skipSpace rest)
      | char '\x7d' :: rest => .ok (read.set name value, rest)
      | _ => .error .malformed := by
  rw [readMembers, readString_append writes]
  simp only
  rw [skipSpace_append isBehind, skipSpace_cons rfl]
  simp only
  rewrite [skipSpace_before isBetween begins, found]
  rfl

/-- An array is what its elements are read as, up to the bracket behind them. -/
theorem readValue_array {points rest others : CodePoints} {first : Char}
    (front : skipSpace points = char first :: others) (noEnd : first ≠ ']') {elements : List Foreign}
    (found : readElements levels bound [] (skipSpace points) = .ok (elements, rest)) :
    readValue (levels + 1) (bound + 1) (char '[' :: points) = .ok (array elements, rest) := by
  rw [front] at found
  rw [readValue]
  simp only
  rw [front]
  split
  · rename_i same
    exact absurd (CodePoint.char.inj (List.cons.inj same).1) noEnd
  · rw [found]
    rfl

theorem readValue_object {points rest others : CodePoints}
    (front : skipSpace points = char '"' :: others) {members : Members CodePoints}
    (found : readMembers levels bound [] (skipSpace points) = .ok (members, rest)) :
    readValue (levels + 1) (bound + 1) (char '\x7b' :: points) = .ok (object members, rest) := by
  rw [front] at found
  rw [readValue]
  simp only
  rw [front]
  split
  · rename_i same
    exact absurd (List.cons.inj same).1 (by decide)
  · rw [found]
    rfl

/-- What the grammar says is read so. -/
theorem Writes.isRead {part : Part} {points : CodePoints}
    (writes : Writes levels part points) : IsRead levels part points := by
  induction writes with
  | @literal _ word _ literal =>
    intro rest bound ends enough
    cases bound with
    | zero =>
      have none := eq_nil_of_map_le enough
      exact absurd none (ne_nil_of_mem (.inl rfl) literal)
    | succ bound => exact readValue_literal literal ends
  | @constant _ word _ constant =>
    intro rest bound ends enough
    cases bound with
    | zero =>
      have none := eq_nil_of_map_le enough
      exact absurd none (ne_nil_of_mem (.inr rfl) constant)
    | succ bound => exact readValue_constant constant ends
  | number writes =>
    intro rest bound ends enough
    cases bound with
    | zero => exact absurd (eq_nil_of_map_le enough) writes.isNumberToken.nonempty
    | succ bound => exact writes.isNumberToken.readValue ends
  | negative writes =>
    intro rest bound ends enough
    cases bound with
    | zero => cases enough
    | succ bound => exact writes.isNumberToken_negative.readValue ends
  | string writes =>
    intro rest bound ends enough
    cases bound with
    | zero => cases enough
    | succ bound =>
      rw [List.cons_append, List.cons_append, List.append_assoc, List.singleton_append, readValue,
        readString_append writes rest]
      rfl
  | emptyArray isSpace =>
    intro rest bound ends enough
    cases bound with
    | zero => cases enough
    | succ bound =>
      rw [List.cons_append, List.cons_append, List.append_assoc, List.singleton_append, readValue,
        skipSpace_append isSpace, skipSpace_cons rfl]
      rfl
  | array writes inner =>
    intro rest bound ends enough
    cases bound with
    | zero => cases enough
    | succ bound =>
      rw [List.length_append, List.length_cons, List.length_singleton] at enough
      obtain ⟨first, others, front, noEnd⟩ := writes.elements_head (char ']' :: rest)
      rw [List.cons_append, List.cons_append, List.append_assoc, List.singleton_append]
      exact readValue_array front noEnd (@inner [] rest bound (by omega))
  | emptyObject isSpace =>
    intro rest bound ends enough
    cases bound with
    | zero => cases enough
    | succ bound =>
      rw [List.cons_append, List.cons_append, List.append_assoc, List.singleton_append, readValue,
        skipSpace_append isSpace, skipSpace_cons rfl]
      rfl
  | object writes inner =>
    intro rest bound ends enough
    cases bound with
    | zero => cases enough
    | succ bound =>
      rw [List.length_append, List.length_cons, List.length_singleton] at enough
      obtain ⟨others, front⟩ := writes.members_head (char '\x7d' :: rest)
      rw [List.cons_append, List.cons_append, List.append_assoc, List.singleton_append]
      exact readValue_object front (@inner [] rest bound (by omega))
  | @lastElement _ _ before points after isBefore writes isAfter inner =>
    intro read rest bound enough
    obtain ⟨bound, rfl⟩ := Nat.exists_eq_succ_of_ne_zero (by omega : bound ≠ 0)
    rw [List.length_append, List.length_append] at enough
    have found := @inner (after ++ char ']' :: rest) bound
      (isAfter.endsToken (endsToken_of_mem (by decide) rest)) (by omega)
    simp only [List.append_assoc]
    rw [skipSpace_before isBefore writes.beginsValue, readElements, found]
    simp only
    rw [skipSpace_append isAfter, skipSpace_cons rfl]
    simp
  | @element _ element elements before points after others isBefore writes isAfter _ inner
      innerOthers =>
    intro read rest bound enough
    obtain ⟨bound, rfl⟩ := Nat.exists_eq_succ_of_ne_zero (by omega : bound ≠ 0)
    rw [List.length_append, List.length_append, List.length_append, List.length_cons] at enough
    have found := @inner (after ++ char ',' :: (others ++ char ']' :: rest)) bound
      (isAfter.endsToken (endsToken_of_mem (by decide) _)) (by omega)
    have later := @innerOthers (element :: read) rest bound (by omega)
    simp only [List.append_assoc, List.cons_append]
    rw [skipSpace_before isBefore writes.beginsValue, readElements, found]
    simp only
    rw [skipSpace_append isAfter, skipSpace_cons rfl]
    simp only
    rw [later]
    simp
  | @lastMember _ name written value before behind between points after isBefore writesName
      isBehind isBetween writes isAfter inner =>
    intro read rest bound enough
    obtain ⟨bound, rfl⟩ := Nat.exists_eq_succ_of_ne_zero (by omega : bound ≠ 0)
    simp only [List.length_append, List.length_cons] at enough
    have found := @inner (after ++ char '\x7d' :: rest) bound
      (isAfter.endsToken (endsToken_of_mem (by decide) rest)) (by omega)
    simp only [List.append_assoc, List.cons_append]
    rw [skipSpace_append isBefore, skipSpace_cons rfl,
      readMembers_name writesName isBehind isBetween writes.beginsValue found,
      skipSpace_append isAfter, skipSpace_cons rfl]
    rfl
  | @member _ name written value pairs before behind between points after others isBefore
      writesName isBehind isBetween writes isAfter _ inner innerOthers =>
    intro read rest bound enough
    obtain ⟨bound, rfl⟩ := Nat.exists_eq_succ_of_ne_zero (by omega : bound ≠ 0)
    simp only [List.length_append, List.length_cons] at enough
    have found := @inner (after ++ char ',' :: (others ++ char '\x7d' :: rest)) bound
      (isAfter.endsToken (endsToken_of_mem (by decide) _)) (by omega)
    have later := @innerOthers (read.set name value) rest bound (by omega)
    simp only [List.append_assoc, List.cons_append]
    rw [skipSpace_append isBefore, skipSpace_cons rfl,
      readMembers_name writesName isBehind isBetween writes.beginsValue found,
      skipSpace_append isAfter, skipSpace_cons rfl]
    exact later

theorem isSpace_iff {points : CodePoints} : IsSpace points ↔ skipSpace points = [] :=
  List.dropWhile_eq_nil_iff.symm

/-- A text is read as a value if and only if it is that value with no more levels. -/
theorem read_eq_ok_iff {value : Foreign} {text : CodePoints} :
    read levels text = .ok value ↔ IsText levels value text := by
  unfold read
  constructor
  · intro found
    obtain ⟨before, isBefore, isText⟩ := exists_of_skipSpace text
    split at found
    · cases found
    · rename_i other rest isValue
      split at found
      · rename_i none
        obtain rfl := Except.ok.inj found
        obtain ⟨written, writes, isWritten⟩ := (readsWritten _).value isValue
        refine ⟨before, written, rest, isBefore, writes, isSpace_iff.2 (List.isEmpty_iff.1 none), ?_⟩
        rw [isText, isWritten, List.append_assoc]
      · cases found
  · rintro ⟨before, written, after, isBefore, writes, isAfter, isText⟩
    have ends : EndsToken after := by
      have behind := isAfter.endsToken endsToken_nil
      rwa [List.append_nil] at behind
    have found := @Writes.isRead _ _ _ writes after (2 * text.length + 2) ends (by
      rw [isText, List.length_append, List.length_append]
      omega)
    rw [isText, List.append_assoc, skipSpace_before isBefore writes.beginsValue, ← List.append_assoc,
      ← isText, found]
    simp only
    rw [isSpace_iff.1 isAfter]
    rfl

/-! ## More levels -/

/-- What is read with more levels is the same, unless what was read with fewer was too deep. -/
def Deepens {Value : Type} (fewer more : Except ReadError Value) : Prop :=
  more = fewer ∨ ∃ container, fewer = .error (.tooDeep container)

theorem Deepens.map {Value Result : Type} {fewer more : Except ReadError Value}
    (deepens : Deepens fewer more) (change : Value → Result) :
    Deepens (fewer.map change) (more.map change) := by
  rcases deepens with rfl | ⟨container, rfl⟩
  · exact .inl rfl
  · exact .inr ⟨container, rfl⟩

/-- With a bound on the recursion, what is read with more levels is the same or was too deep. -/
structure ReadsDeeper (bound : Nat) : Prop where
  value : ∀ {fewer more}, fewer ≤ more → ∀ points,
    Deepens (readValue fewer bound points) (readValue more bound points)
  elements : ∀ {fewer more}, fewer ≤ more → ∀ read points,
    Deepens (readElements fewer bound read points) (readElements more bound read points)
  members : ∀ {fewer more}, fewer ≤ more → ∀ read points,
    Deepens (readMembers fewer bound read points) (readMembers more bound read points)

namespace ReadsDeeper

variable (inner : ReadsDeeper bound) {fewer more : Nat} (le : fewer ≤ more)

include inner le

theorem value_succ (points : CodePoints) :
    Deepens (readValue fewer (bound + 1) points) (readValue more (bound + 1) points) := by
  unfold readValue
  split
  · exact .inl rfl
  · cases fewer with
    | zero => exact .inr ⟨.array, rfl⟩
    | succ fewer =>
      obtain ⟨more, rfl⟩ := Nat.exists_eq_succ_of_ne_zero (by omega : more ≠ 0)
      simp only
      split
      · exact .inl rfl
      · exact (inner.elements (Nat.le_of_succ_le_succ le) [] _).map _
  · cases fewer with
    | zero => exact .inr ⟨.object, rfl⟩
    | succ fewer =>
      obtain ⟨more, rfl⟩ := Nat.exists_eq_succ_of_ne_zero (by omega : more ≠ 0)
      simp only
      split
      · exact .inl rfl
      · exact (inner.members (Nat.le_of_succ_le_succ le) [] _).map _
  · split
    · cases fewer with
      | zero => exact .inr ⟨.constant, rfl⟩
      | succ fewer =>
        have some : more ≠ 0 := by omega
        rw [if_neg some, if_neg (Nat.succ_ne_zero fewer)]
        exact .inl rfl
    · exact .inl rfl

theorem elements_succ (read : List Foreign) (points : CodePoints) :
    Deepens (readElements fewer (bound + 1) read points)
      (readElements more (bound + 1) read points) := by
  unfold readElements
  rcases inner.value le points with same | ⟨container, deep⟩
  · rw [same]
    split
    · exact .inl rfl
    · split
      · exact inner.elements le _ _
      · exact .inl rfl
      · exact .inl rfl
  · rw [deep]
    exact .inr ⟨container, rfl⟩

theorem members_succ (read : Members CodePoints) (points : CodePoints) :
    Deepens (readMembers fewer (bound + 1) read points)
      (readMembers more (bound + 1) read points) := by
  unfold readMembers
  split
  · split
    · exact .inl rfl
    · rename_i name afterName _
      split
      · rename_i afterColon _
        rcases inner.value le (skipSpace afterColon) with same | ⟨container, deep⟩
        · rw [same]
          split
          · exact .inl rfl
          · split
            · exact inner.members le _ _
            · exact .inl rfl
            · exact .inl rfl
        · rw [deep]
          exact .inr ⟨container, rfl⟩
      · exact .inl rfl
  · exact .inl rfl

end ReadsDeeper

theorem readsDeeper (bound : Nat) : ReadsDeeper bound := by
  induction bound with
  | zero => exact ⟨fun _ _ => .inl rfl, fun _ _ _ => .inl rfl, fun _ _ _ => .inl rfl⟩
  | succ bound inner => exact ⟨inner.value_succ, inner.elements_succ, inner.members_succ⟩

theorem read_deepens {fewer more : Nat} (le : fewer ≤ more) (text : CodePoints) :
    Deepens (read fewer text) (read more text) := by
  unfold read
  rcases (readsDeeper _).value le (skipSpace text) with same | ⟨container, deep⟩
  · rw [same]
    exact .inl rfl
  · rw [deep]
    exact .inr ⟨container, rfl⟩

/-- A text that is a value, with however many levels, is read or is too deep. -/
theorem read_of_isText {deeper : Nat} {value : Foreign} {text : CodePoints}
    (isText : IsText deeper value text) :
    read levels text = .ok value ∨ ∃ container, read levels text = .error (.tooDeep container) := by
  have found := read_eq_ok_iff.2 isText
  rcases Nat.le_total levels deeper with fewer | more
  · rcases read_deepens fewer text with same | deep
    · exact .inl (same ▸ found)
    · exact .inr deep
  · rcases read_deepens more text with same | ⟨container, deep⟩
    · exact .inl (same.trans found)
    · rw [deep] at found
      cases found

end Reckoner.Json
