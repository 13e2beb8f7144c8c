import Reckoner.Proofs.Json.Grammar
import Reckoner.Proofs.Numeral
import Mathlib.Data.List.TakeWhile

/-!
# The tokens of JSON

The scanners for numbers, strings and words take what the grammar of JSON says. A number or a word is
read within the characters that a token may have, so it is taken whole if none of these follows it.
-/

set_option autoImplicit false

namespace Reckoner.Json

open Binary64 Text CodePoint

/-! ## Digits -/

theorem isDigit_of_isAsciiDigit {c : Char} (ascii : isAsciiDigit c = true) : isDigit c = true := by
  simp only [isAsciiDigit, Bool.and_eq_true, decide_eq_true_eq, Char.le_def,
    UInt32.le_iff_toNat_le] at ascii
  exact (isDigit_iff c).2 ⟨0x30, by decide, ascii.1, Nat.lt_succ_of_le ascii.2⟩

theorem not_isAsciiDigit_of_isStop {c : Char} (stop : isStop c = true) : isAsciiDigit c = false := by
  have noDigit := not_isDigit_of_isStop stop
  cases ascii : isAsciiDigit c with
  | false => rfl
  | true => exact absurd (isDigit_of_isAsciiDigit ascii) (by rw [noDigit]; exact Bool.false_ne_true)

theorem AreDigits.span {digits rest : List Char} (are : AreDigits digits)
    (outside : ∀ c ∈ rest.head?, isAsciiDigit c = false) :
    (digits ++ rest).takeWhile isAsciiDigit = digits ∧
      (digits ++ rest).dropWhile isAsciiDigit = rest := by
  have all : digits.takeWhile isAsciiDigit = digits := List.takeWhile_eq_self_iff.2 are.ascii
  have none : digits.dropWhile isAsciiDigit = [] := List.dropWhile_eq_nil_iff.2 are.ascii
  obtain ⟨taken, dropped⟩ := takeWhile_append_of_stops digits outside
  exact ⟨taken.trans all, by rw [dropped, none, List.nil_append]⟩

theorem areDigits_takeWhile {characters : List Char}
    (nonempty : (characters.takeWhile isAsciiDigit).isEmpty = false) :
    AreDigits (characters.takeWhile isAsciiDigit) :=
  ⟨List.isEmpty_eq_false_iff.1 nonempty, List.all_eq_true.1 List.all_takeWhile⟩

/-! ## Numbers -/

theorem scanWhole_of_ne_zero {characters : List Char} (noZero : characters.head? ≠ some '0') :
    scanWhole characters =
      (characters.takeWhile isAsciiDigit, characters.dropWhile isAsciiDigit) := by
  cases characters with
  | nil => rfl
  | cons c rest =>
    unfold scanWhole
    split
    · rename_i others zero
      exact absurd (congrArg List.head? zero) noZero
    · rfl

theorem scanWhole_chars (characters : List Char) :
    (scanWhole characters).1 ++ (scanWhole characters).2 = characters := by
  unfold scanWhole
  split
  · rfl
  · exact List.takeWhile_append_dropWhile

theorem isWhole_scanWhole {characters : List Char}
    (nonempty : (scanWhole characters).1.isEmpty = false) : IsWhole (scanWhole characters).1 := by
  by_cases zero : characters.head? = some '0'
  · obtain ⟨rest, rfl⟩ := List.head?_eq_some_iff.1 zero
    refine ⟨⟨List.cons_ne_nil _ _, fun c member => ?_⟩, fun _ => rfl⟩
    rw [List.mem_singleton.1 member]
    decide
  · rw [scanWhole_of_ne_zero zero] at nonempty ⊢
    refine ⟨areDigits_takeWhile nonempty, fun leading => absurd ?_ zero⟩
    have prefixed := List.takeWhile_prefix (l := characters) isAsciiDigit
    obtain ⟨front, isFront⟩ := List.head?_eq_some_iff.1 leading
    obtain ⟨rest, same⟩ := prefixed
    rw [← same, show characters.takeWhile isAsciiDigit = '0' :: front from isFront]
    rfl

theorem scanWhole_append {whole rest : List Char} (isWhole : IsWhole whole)
    (outside : ∀ c ∈ rest.head?, isAsciiDigit c = false) :
    scanWhole (whole ++ rest) = (whole, rest) := by
  by_cases zero : whole.head? = some '0'
  · rw [isWhole.leading zero]
    rfl
  · have span := isWhole.digits.span outside
    rw [scanWhole_of_ne_zero, span.1, span.2]
    obtain ⟨first, others, rfl⟩ := List.exists_cons_of_ne_nil isWhole.digits.nonempty
    exact zero

theorem scanFraction_chars (characters : List Char) :
    ((scanFraction characters).1.map ('.' :: ·)).getD [] ++ (scanFraction characters).2 =
      characters := by
  unfold scanFraction
  split
  · simp only
    split
    · rfl
    · simp [List.takeWhile_append_dropWhile]
  · rfl

theorem areDigits_scanFraction (characters : List Char) :
    ∀ digits ∈ (scanFraction characters).1, AreDigits digits := by
  intro digits found
  unfold scanFraction at found
  split at found
  · simp only at found
    split at found
    · cases found
    · rename_i some
      obtain rfl := Option.mem_some.1 found
      exact areDigits_takeWhile (Bool.eq_false_iff.2 some)
  · cases found

theorem scanFraction_append {fraction : Option (List Char)} {rest : List Char}
    (areDigits : ∀ digits ∈ fraction, AreDigits digits)
    (outside : ∀ c ∈ rest.head?, isAsciiDigit c = false) (noPoint : ∀ c ∈ rest.head?, c ≠ '.') :
    scanFraction ((fraction.map ('.' :: ·)).getD [] ++ rest) = (fraction, rest) := by
  cases fraction with
  | none =>
    unfold scanFraction
    split
    · rename_i tail point
      simp only [Option.map_none, Option.getD_none, List.nil_append] at point
      exact absurd rfl (noPoint '.' (by rw [point]; rfl))
    · rfl
  | some digits =>
    have are := areDigits digits rfl
    have span := are.span outside
    simp only [Option.map_some, Option.getD_some, List.cons_append, scanFraction, span.1, span.2]
    rw [if_neg (by simpa using are.nonempty)]

theorem scanExponent_chars (characters : List Char) :
    ((scanExponent characters).1.map Exponent.chars).getD [] ++ (scanExponent characters).2 =
      characters := by
  cases characters with
  | nil => rfl
  | cons mark rest =>
    simp only [scanExponent]
    split
    · have signed := Sign.scan_chars rest
      simp only [Option.map_some, Option.getD_some, Exponent.chars, List.append_assoc,
        List.cons_append, List.takeWhile_append_dropWhile, signed]
    · rfl

theorem isExponent_scanExponent (characters : List Char) :
    ∀ exponent ∈ (scanExponent characters).1, IsExponent exponent := by
  intro exponent found
  cases characters with
  | nil => cases found
  | cons mark rest =>
    simp only [scanExponent] at found
    split at found
    · rename_i complete
      simp only [Bool.and_eq_true, Bool.or_eq_true, decide_eq_true_eq, Bool.not_eq_true'] at complete
      obtain rfl := Option.mem_some.1 found
      exact ⟨complete.1, areDigits_takeWhile complete.2⟩
    · cases found

theorem scanExponent_append {exponent : Option Exponent} {rest : List Char}
    (isExponent : ∀ found ∈ exponent, IsExponent found) (stops : Stops rest) :
    scanExponent ((exponent.map Exponent.chars).getD [] ++ rest) = (exponent, rest) := by
  have outside : ∀ c ∈ rest.head?, isAsciiDigit c = false := fun c isHead =>
    not_isAsciiDigit_of_isStop (stops c isHead)
  cases exponent with
  | none =>
    cases rest with
    | nil => rfl
    | cons c rest =>
      have noMark := ne_mark_of_isStop stops.head
      simp [scanExponent, noMark.1, noMark.2]
  | some exponent =>
    obtain ⟨mark, sign, digits⟩ := exponent
    obtain ⟨isMark, areDigits⟩ := isExponent _ rfl
    have span := areDigits.span outside
    have signed :
        Sign.scan ((sign.map Sign.char).toList ++ (digits ++ rest)) = (sign, digits ++ rest) := by
      cases sign with
      | some sign => simp [Sign.scan, Sign.ofChar?_char]
      | none =>
        obtain ⟨first, others, rfl⟩ := List.exists_cons_of_ne_nil areDigits.nonempty
        have digit := isDigit_of_isAsciiDigit (areDigits.ascii first List.mem_cons_self)
        simp [Sign.scan, Sign.ofChar?_of_isDigit digit]
    have marked : (decide (mark = 'e') || decide (mark = 'E')) = true := by
      simpa using isMark
    have some : digits.isEmpty = false := List.isEmpty_eq_false_iff.2 areDigits.nonempty
    simp [scanExponent, Exponent.chars, signed, span.1, span.2, marked, some]

theorem exists_of_readUnsigned {negative : Bool} {characters rest : List Char} {value : Foreign}
    (found : readUnsigned negative characters = some (value, rest)) :
    ∃ written, WritesNumber negative value written ∧ characters = written ++ rest := by
  have whole := scanWhole_chars characters
  have fraction := scanFraction_chars (scanWhole characters).2
  have exponent := scanExponent_chars (scanFraction (scanWhole characters).2).2
  have areDigits := areDigits_scanFraction (scanWhole characters).2
  have isExponent := isExponent_scanExponent (scanFraction (scanWhole characters).2).2
  unfold readUnsigned at found
  simp only at found
  split at found
  · cases found
  · rename_i some
    have isWhole := isWhole_scanWhole (Bool.eq_false_iff.2 some)
    generalize scanWhole characters = front at *
    generalize scanFraction front.2 = middle at *
    generalize scanExponent middle.2 = back at *
    split at found
    · rename_i neither
      rw [Bool.and_eq_true, Option.isNone_iff_eq_none, Option.isNone_iff_eq_none] at neither
      rw [neither.1] at fraction
      rw [neither.2] at exponent
      split at found
      · cases found
      · rename_i short
        cases found
        refine ⟨front.1, .whole isWhole (Nat.not_lt.1 short), ?_⟩
        rw [← whole, ← fraction, ← exponent]
        rfl
    · rename_i either
      cases found
      refine ⟨_, @WritesNumber.double _ ⟨front.1, middle.1, back.1⟩
        ⟨isWhole, areDigits, isExponent⟩ ?_, ?_⟩
      · cases isMiddle : middle.1 with
        | some digits => exact .inl rfl
        | none =>
          cases isBack : back.1 with
          | some exponent => exact .inr rfl
          | none => simp [isMiddle, isBack] at either
      · rw [← whole, ← fraction, ← exponent]
        simp only [Numeral.chars, List.append_assoc]

theorem option_outside {exponent : Option Exponent} {rest : List Char}
    (isExponent : ∀ found ∈ exponent, IsExponent found) (stops : Stops rest) :
    ∀ c ∈ ((exponent.map Exponent.chars).getD [] ++ rest).head?,
      isAsciiDigit c = false ∧ c ≠ '.' := by
  intro c isHead
  cases exponent with
  | none =>
    have stop := stops c isHead
    exact ⟨not_isAsciiDigit_of_isStop stop, ne_point_of_isStop stop⟩
  | some exponent =>
    simp only [Option.map_some, Option.getD_some, Exponent.chars, List.cons_append,
      List.head?_cons, Option.mem_some_iff] at isHead
    subst isHead
    rcases (isExponent exponent rfl).mark with mark | mark
    · exact mark ▸ by decide
    · exact mark ▸ by decide

theorem readUnsigned_append {negative : Bool} {written rest : List Char} {value : Foreign}
    (writes : WritesNumber negative value written) (stops : Stops rest) :
    readUnsigned negative (written ++ rest) = some (value, rest) := by
  have outside : ∀ c ∈ rest.head?, isAsciiDigit c = false := fun c isHead =>
    not_isAsciiDigit_of_isStop (stops c isHead)
  cases writes with
  | whole isWhole short =>
    have whole := scanWhole_append isWhole outside
    have fraction : scanFraction rest = (none, rest) :=
      @scanFraction_append none rest nofun outside fun c isHead => ne_point_of_isStop (stops c isHead)
    have exponent : scanExponent rest = (none, rest) := @scanExponent_append none rest nofun stops
    have some : written.isEmpty = false := List.isEmpty_eq_false_iff.2 isWhole.digits.nonempty
    simp [readUnsigned, whole, fraction, exponent, some, short]
  | double isNumeral isDouble =>
    rename_i numeral
    obtain ⟨front, middle, back⟩ := numeral
    obtain ⟨isWhole, areDigits, isExponent⟩ := isNumeral
    have after := option_outside isExponent stops
    have exponent := scanExponent_append isExponent stops
    have fraction := scanFraction_append areDigits (fun c isHead => (after c isHead).1)
      fun c isHead => (after c isHead).2
    have whole := @scanWhole_append front
      ((middle.map ('.' :: ·)).getD [] ++ ((back.map Exponent.chars).getD [] ++ rest)) isWhole (by
        cases middle with
        | none => exact fun c isHead => (after c isHead).1
        | some digits =>
          intro c isHead
          obtain rfl := Option.some.inj isHead
          decide)
    have some : front.isEmpty = false := List.isEmpty_eq_false_iff.2 isWhole.digits.nonempty
    have either : (middle.isNone && back.isNone) = false := by
      cases middle with
      | some digits => rfl
      | none =>
        cases back with
        | some exponent => rfl
        | none => simp at isDouble
    simp [readUnsigned, Numeral.chars, whole, fraction, exponent, some, either]

/-! ## Words -/

theorem eq_append_of_after? {word : String} {characters rest : List Char}
    (found : after? word characters = some rest) : characters = word.toList ++ rest := by
  unfold after? at found
  split at found
  · rename_i isFront
    obtain ⟨others, rfl⟩ := List.isPrefixOf_iff_prefix.1 isFront
    rw [← String.length_toList, List.drop_left] at found
    rw [Option.some.inj found]
  · cases found

theorem exists_of_readWord {words : List (String × Foreign)} {characters rest : List Char}
    {value : Foreign} (found : readWord words characters = some (value, rest)) :
    ∃ word, (word, value) ∈ words ∧ characters = word.toList ++ rest := by
  obtain ⟨⟨word, stands⟩, isWord, isFound⟩ := List.exists_of_findSome?_eq_some found
  obtain ⟨behind, isAfter, same⟩ := Option.map_eq_some_iff.1 isFound
  cases same
  exact ⟨word, isWord, eq_append_of_after? isAfter⟩

theorem readWord_literal {word : String} {value : Foreign} (literal : (word, value) ∈ literals) :
    readWord constants word.toList = none ∧ readWord literals word.toList = some (value, []) := by
  simp only [literals, List.mem_cons, List.not_mem_nil, or_false, Prod.mk.injEq] at literal
  rcases literal with ⟨rfl, rfl⟩ | ⟨rfl, rfl⟩ | ⟨rfl, rfl⟩
  all_goals exact ⟨rfl, rfl⟩

theorem readWord_constant {word : String} {value : Foreign} (constant : (word, value) ∈ constants) :
    readWord constants word.toList = some (value, []) := by
  simp only [constants, List.mem_cons, List.not_mem_nil, or_false, Prod.mk.injEq] at constant
  rcases constant with ⟨rfl, rfl⟩ | ⟨rfl, rfl⟩ | ⟨rfl, rfl⟩
  all_goals rfl

/-- No word begins with a digit, nor with a digit behind a minus sign. -/
theorem readWord_of_isAsciiDigit {words : List (String × Foreign)}
    (isList : words = literals ∨ words = constants) {first : Char} (digit : isAsciiDigit first = true)
    (rest : List Char) :
    readWord words (first :: rest) = none ∧ readWord words ('-' :: first :: rest) = none := by
  have fronts : ∀ entry ∈ words, (entry.1.toList.head?.any fun c => !isAsciiDigit c) = true ∧
      (entry.1.toList.head? = some '-' → entry.1.toList[1]? = some 'I') := by
    rcases isList with rfl | rfl
    · decide
    · decide
  constructor
  · cases found : readWord words (first :: rest) with
    | none => rfl
    | some result =>
      obtain ⟨word, isWord, same⟩ := exists_of_readWord found
      have front := (fronts _ isWord).1
      cases chars : word.toList with
      | nil => simp [chars] at front
      | cons c others =>
        rw [chars] at same
        obtain ⟨rfl, -⟩ := List.cons.inj same
        simp [chars, digit] at front
  · cases found : readWord words ('-' :: first :: rest) with
    | none => rfl
    | some result =>
      obtain ⟨word, isWord, same⟩ := exists_of_readWord found
      have front := fronts _ isWord
      rcases chars : word.toList with _ | ⟨c, _ | ⟨second, others⟩⟩
      · simp [chars] at front
      · rw [chars] at same
        obtain ⟨rfl, -⟩ := List.cons.inj same
        simp [chars] at front
      · rw [chars] at same
        obtain ⟨rfl, tails⟩ := List.cons.inj same
        obtain ⟨rfl, -⟩ := List.cons.inj tails
        simp only [chars, List.head?_cons, List.getElem?_cons_succ, List.getElem?_cons_zero,
          Option.some.injEq, forall_const] at front
        rw [front.2] at digit
        exact absurd digit (by decide)

/-! ## Tokens -/

/-- Behind a token stands no character that it could go on with. -/
def EndsToken (rest : CodePoints) : Prop :=
  ∀ point ∈ rest.head?, point.passes isTokenPart = false

/-- Characters that a token may have. -/
def AreTokenParts (characters : List Char) : Prop :=
  ∀ c ∈ characters, isTokenPart c = true

theorem splitToken_points (points : CodePoints) :
    (splitToken points).1.map char ++ (splitToken points).2 = points := by
  induction points with
  | nil => rfl
  | cons point rest inner =>
    cases point with
    | surrogate code noCharacter => rfl
    | char c =>
      rw [splitToken]
      split
      · exact congrArg (char c :: ·) inner
      · rfl

theorem splitToken_append {token : List Char} (parts : AreTokenParts token) {rest : CodePoints}
    (ends : EndsToken rest) : splitToken (token.map char ++ rest) = (token, rest) := by
  induction token with
  | nil =>
    cases rest with
    | nil => rfl
    | cons point others =>
      cases point with
      | surrogate code noCharacter => rfl
      | char c =>
        have noPart : isTokenPart c = false := ends (char c) rfl
        rw [List.map_nil, List.nil_append, splitToken, noPart, if_neg Bool.false_ne_true]
  | cons c token inner =>
    obtain ⟨part, partsRest⟩ := List.forall_mem_cons.1 parts
    rw [List.map_cons, List.cons_append, splitToken, if_pos part, inner partsRest]

/-- What is read on the token in front is read in front of the rest. -/
theorem exists_of_onToken {read : List Char → Option (Foreign × List Char)} {points rest : CodePoints}
    {value : Foreign} (found : onToken read points = some (value, rest)) :
    ∃ token others, read token = some (value, others) ∧
      ∀ front, token = front ++ others → points = front.map char ++ rest := by
  obtain ⟨⟨value, others⟩, isRead, same⟩ := Option.map_eq_some_iff.1 found
  obtain ⟨rfl, rfl⟩ := Prod.mk.inj same
  refine ⟨_, others, isRead, fun front whole => ?_⟩
  have split := splitToken_points points
  rw [whole, List.map_append, List.append_assoc] at split
  exact split.symm

theorem onToken_append {read : List Char → Option (Foreign × List Char)} {token : List Char}
    (parts : AreTokenParts token) {rest : CodePoints} (ends : EndsToken rest) :
    onToken read (token.map char ++ rest) =
      (read token).map fun found => (found.1, found.2.map char ++ rest) := by
  rw [onToken, splitToken_append parts ends]

theorem areTokenParts_of_mem {words : List (String × Foreign)}
    (isList : words = literals ∨ words = constants) {word : String} {value : Foreign}
    (member : (word, value) ∈ words) : AreTokenParts word.toList := by
  have each : ∀ entry ∈ words, entry.1.toList.all isTokenPart = true := by
    rcases isList with rfl | rfl
    · decide
    · decide
  exact List.all_eq_true.1 (each _ member)

theorem AreDigits.areTokenParts {digits : List Char} (areDigits : AreDigits digits) :
    AreTokenParts digits := by
  intro c member
  have ascii := areDigits.ascii c member
  have digit : c.isDigit = true := ascii
  simp [isTokenPart, Char.isAlphanum, digit]

theorem IsNumeral.areTokenParts {numeral : Numeral} (isNumeral : IsNumeral numeral) :
    AreTokenParts numeral.chars := by
  intro c member
  simp only [Numeral.chars, List.mem_append] at member
  rcases member with (whole | fraction) | exponent
  · exact isNumeral.whole.digits.areTokenParts c whole
  · cases digits : numeral.fraction with
    | none => simp [digits] at fraction
    | some found =>
      rw [digits] at fraction
      rcases List.mem_cons.1 fraction with rfl | inside
      · decide
      · exact (isNumeral.fraction found digits).areTokenParts c inside
  · cases shown : numeral.exponent with
    | none => simp [shown] at exponent
    | some found =>
      have isExponent := isNumeral.exponent found shown
      rw [shown] at exponent
      simp only [Option.map_some, Option.getD_some, Exponent.chars, List.cons_append,
        List.mem_cons, List.mem_append, Option.mem_toList, Option.map_eq_some_iff] at exponent
      rcases exponent with rfl | ⟨sign, -, rfl⟩ | inside
      · rcases isExponent.mark with mark | mark
        · exact mark ▸ by decide
        · exact mark ▸ by decide
      · cases sign with
        | plus => decide
        | minus => decide
      · exact isExponent.digits.areTokenParts c inside

theorem WritesNumber.areTokenParts {negative : Bool} {value : Foreign} {characters : List Char}
    (writes : WritesNumber negative value characters) : AreTokenParts characters := by
  cases writes with
  | whole isWhole _ => exact isWhole.digits.areTokenParts
  | double isNumeral _ => exact isNumeral.areTokenParts

/-! ## Strings -/

theorem exists_of_readUnit {points rest : CodePoints} {unit : Nat}
    (found : readUnit points = some (unit, rest)) :
    ∃ digits, WritesUnit unit digits ∧ points = digits ++ rest := by
  unfold readUnit at found
  split at found
  · simp only [Option.bind_eq_bind, Option.bind_eq_some_iff, Option.some.injEq,
      Prod.mk.injEq] at found
    obtain ⟨first, isFirst, second, isSecond, third, isThird, fourth, isFourth, rfl, rfl⟩ := found
    exact ⟨_, .digits isFirst isSecond isThird isFourth, rfl⟩
  · cases found

theorem readUnit_append {digits : CodePoints} {unit : Nat} (writes : WritesUnit unit digits)
    (rest : CodePoints) : readUnit (digits ++ rest) = some (unit, rest) := by
  cases writes with
  | digits isFirst isSecond isThird isFourth =>
    simp [readUnit, isFirst, isSecond, isThird, isFourth]

/-- Digits of a unit in front of other characters are the only ones that a unit has there. -/
theorem unit_unique {unit other : Nat} {digits otherDigits rest otherRest : CodePoints}
    (writes : WritesUnit unit digits) (writesOther : WritesUnit other otherDigits)
    (same : digits ++ rest = otherDigits ++ otherRest) : unit = other ∧ rest = otherRest := by
  have read := readUnit_append writes rest
  rw [same, readUnit_append writesOther otherRest] at read
  cases read
  exact ⟨rfl, rfl⟩

theorem BeginsWithLow.append {points : CodePoints} (begins : BeginsWithLow points)
    (more : CodePoints) : BeginsWithLow (points ++ more) := by
  obtain ⟨unit, digits, rest, writes, low, rfl⟩ := begins
  exact ⟨unit, digits, rest ++ more, writes, low, by simp⟩

/-- The quote behind a string is no part of an escape in it. -/
theorem WritesString.beginsWithLow {meant written rest : CodePoints}
    (writes : WritesString meant written) (begins : BeginsWithLow (written ++ char '"' :: rest)) :
    BeginsWithLow written := by
  obtain ⟨unit, digits, behind, writesUnit, low, same⟩ := begins
  cases writes with
  | nil => cases same
  | plain _ noBackslash _ _ => exact absurd (List.cons.inj same).1 noBackslash
  | escape stands _ =>
    rw [CodePoint.char.inj (List.cons.inj (List.cons.inj same).2).1] at stands
    cases stands
  | unit writesOther _ _ =>
    simp only [List.cons_append, List.cons.injEq, true_and, List.append_assoc] at same
    obtain ⟨rfl, -⟩ := unit_unique writesOther writesUnit same
    exact ⟨_, _, _, writesOther, low, rfl⟩
  | pair writesHigh isHigh _ _ _ =>
    simp only [List.cons_append, List.cons.injEq, true_and, List.append_assoc] at same
    obtain ⟨rfl, -⟩ := unit_unique writesHigh writesUnit same
    exact ⟨_, _, _, writesHigh, low, List.append_assoc _ _ _⟩

/-- What is read behind the mark of an escaped unit is a unit on its own or a surrogate pair. -/
theorem exists_of_readEscapedUnit {points rest : CodePoints} {point : CodePoint}
    (found : readEscapedUnit points = some (point, rest)) :
    (∃ unit digits, WritesUnit unit digits ∧ (isHighSurrogate unit = true → ¬ BeginsWithLow rest) ∧
        point = ofNat unit ∧ points = digits ++ rest) ∨
      ∃ high highDigits low lowDigits, WritesUnit high highDigits ∧ isHighSurrogate high = true ∧
        WritesUnit low lowDigits ∧ isLowSurrogate low = true ∧
        point = char (pairedCharacter high low) ∧
        points = highDigits ++ char '\\' :: char 'u' :: lowDigits ++ rest := by
  obtain ⟨⟨high, behind⟩, isUnit, isRead⟩ := Option.bind_eq_some_iff.1 found
  obtain ⟨digits, writes, rfl⟩ := exists_of_readUnit isUnit
  simp only at isRead
  split at isRead
  · rename_i tail
    have again (begins : BeginsWithLow (char '\\' :: char 'u' :: tail)) :
        ∃ low after, readUnit tail = some (low, after) ∧ isLowSurrogate low = true := by
      obtain ⟨low, lowDigits, after, writesLow, isLow, same⟩ := begins
      simp only [List.cons_append, List.cons.injEq, true_and] at same
      exact ⟨low, after, same ▸ readUnit_append writesLow after, isLow⟩
    split at isRead
    · rename_i low after isSecond
      split at isRead
      · rename_i surrogates
        obtain ⟨rfl, rfl⟩ := Prod.mk.inj (Option.some.inj isRead)
        rw [Bool.and_eq_true] at surrogates
        obtain ⟨lowDigits, writesLow, rfl⟩ := exists_of_readUnit isSecond
        exact .inr ⟨high, digits, low, lowDigits, writes, surrogates.1, writesLow, surrogates.2, rfl,
          by simp⟩
      · rename_i surrogates
        obtain ⟨rfl, rfl⟩ := Prod.mk.inj (Option.some.inj isRead)
        refine .inl ⟨high, digits, writes, fun isHigh begins => surrogates ?_, rfl, rfl⟩
        obtain ⟨other, others, same, isLow⟩ := again begins
        rw [isSecond] at same
        cases same
        rw [isHigh, isLow]
        rfl
    · rename_i none
      obtain ⟨rfl, rfl⟩ := Prod.mk.inj (Option.some.inj isRead)
      refine .inl ⟨high, digits, writes, fun _ begins => ?_, rfl, rfl⟩
      obtain ⟨other, others, same, -⟩ := again begins
      rw [none] at same
      cases same
  · rename_i noEscape
    obtain ⟨rfl, rfl⟩ := Prod.mk.inj (Option.some.inj isRead)
    refine .inl ⟨high, digits, writes, fun _ begins => ?_, rfl, rfl⟩
    obtain ⟨low, lowDigits, after, -, -, same⟩ := begins
    exact noEscape _ same

theorem readEscapedUnit_unit {unit : Nat} {digits rest : CodePoints}
    (writes : WritesUnit unit digits)
    (alone : isHighSurrogate unit = true → ¬ BeginsWithLow rest) :
    readEscapedUnit (digits ++ rest) = some (ofNat unit, rest) := by
  unfold readEscapedUnit
  rw [readUnit_append writes rest]
  simp only [Option.bind_eq_bind, Option.bind_some]
  split
  · rename_i tail
    split
    · rename_i low after isSecond
      obtain ⟨lowDigits, writesLow, rfl⟩ := exists_of_readUnit isSecond
      split
      · rename_i surrogates
        rw [Bool.and_eq_true] at surrogates
        exact absurd ⟨low, lowDigits, after, writesLow, surrogates.2, rfl⟩ (alone surrogates.1)
      · rfl
    · rfl
  · rfl

theorem readEscapedUnit_pair {high low : Nat} {highDigits lowDigits : CodePoints}
    (writesHigh : WritesUnit high highDigits) (isHigh : isHighSurrogate high = true)
    (writesLow : WritesUnit low lowDigits) (isLow : isLowSurrogate low = true) (rest : CodePoints) :
    readEscapedUnit (highDigits ++ char '\\' :: char 'u' :: (lowDigits ++ rest)) =
      some (char (pairedCharacter high low), rest) := by
  unfold readEscapedUnit
  rw [readUnit_append writesHigh]
  simp only [Option.bind_eq_bind, Option.bind_some, readUnit_append writesLow rest]
  rw [if_pos (by rw [isHigh, isLow]; rfl)]

theorem exists_of_readStringTail {bound : Nat} {read points rest text : CodePoints}
    (found : readStringTail bound read points = some (text, rest)) :
    ∃ meant written, WritesString meant written ∧ points = written ++ char '"' :: rest ∧
      text = read.reverse ++ meant := by
  induction bound generalizing read points with
  | zero => cases found
  | succ bound inner =>
    unfold readStringTail at found
    split at found
    · cases found
      exact ⟨[], [], .nil, rfl, by rw [List.append_nil]⟩
    · split at found
      · rename_i point behind isUnit
        obtain ⟨meant, written, writes, rfl, rfl⟩ := inner found
        rcases exists_of_readEscapedUnit isUnit with
          ⟨unit, digits, writesUnit, alone, rfl, rfl⟩ |
          ⟨high, highDigits, low, lowDigits, writesHigh, isHigh, writesLow, isLow, rfl, rfl⟩
        · have noLow : isHighSurrogate unit = true → ¬ BeginsWithLow written :=
            fun isHigh begins => alone isHigh (begins.append (char '"' :: rest))
          refine ⟨_, _, .unit writesUnit noLow writes, ?_, ?_⟩
          · simp
          · simp
        · refine ⟨_, _, .pair writesHigh isHigh writesLow isLow writes, ?_, ?_⟩
          · simp
          · simp
      · cases found
    · split at found
      · rename_i c stands
        obtain ⟨meant, written, writes, rfl, rfl⟩ := inner found
        exact ⟨char c :: meant, _, .escape stands writes, rfl, by simp⟩
      · cases found
    · split at found
      · cases found
      · rename_i noQuote _ _ plain
        obtain ⟨meant, written, writes, rfl, rfl⟩ := inner found
        simp only [Bool.or_eq_true, decide_eq_true_eq, not_or, Nat.not_lt] at plain
        refine ⟨_, _, .plain ?_ plain.1 plain.2 writes, rfl, by simp⟩
        rintro rfl
        exact noQuote rfl
    · cases found

theorem readStringTail_append {meant written : CodePoints} (writes : WritesString meant written)
    (rest read : CodePoints) {bound : Nat} (enough : written.length < bound) :
    readStringTail bound read (written ++ char '"' :: rest) = some (read.reverse ++ meant, rest) := by
  cases bound with
  | zero => exact absurd enough (Nat.not_lt_zero _)
  | succ bound =>
    induction writes generalizing read bound with
    | nil => simp [readStringTail]
    | @plain point meant written noQuote noBackslash noControl writes inner =>
      rw [List.length_cons] at enough
      obtain ⟨bound, rfl⟩ := Nat.exists_eq_succ_of_ne_zero (by omega : bound ≠ 0)
      have noControl : ¬ (decide (point = char '\\') || decide (point.code < 0x20)) = true := by
        simpa [noBackslash] using noControl
      rw [List.cons_append, readStringTail]
      · rw [if_neg noControl, inner (point :: read) bound (by omega)]
        simp
      · exact noQuote
      · exact fun others same => absurd same noBackslash
      · exact fun letter others same => absurd same noBackslash
    | @escape letter c meant written stands writes inner =>
      rw [List.length_cons, List.length_cons] at enough
      obtain ⟨bound, rfl⟩ := Nat.exists_eq_succ_of_ne_zero (by omega : bound ≠ 0)
      rw [List.cons_append, List.cons_append, readStringTail]
      · simp only [stands]
        rw [inner (char c :: read) bound (by omega)]
        simp
      · rintro rfl
        cases stands
    | @unit unit digits meant written writesUnit alone writes inner =>
      rw [List.cons_append, List.cons_append, List.length_cons, List.length_cons] at enough
      obtain ⟨bound, rfl⟩ := Nat.exists_eq_succ_of_ne_zero (by omega : bound ≠ 0)
      have noLow : isHighSurrogate unit = true → ¬ BeginsWithLow (written ++ char '"' :: rest) :=
        fun isHigh begins => alone isHigh (writes.beginsWithLow begins)
      simp only [List.cons_append, List.append_assoc]
      rw [readStringTail, readEscapedUnit_unit writesUnit noLow]
      simp only
      rw [inner (ofNat unit :: read) bound (by rw [List.length_append] at enough; omega)]
      simp
    | @pair high low highDigits lowDigits meant written writesHigh isHigh writesLow isLow writes
        inner =>
      simp only [List.cons_append, List.append_assoc, List.length_cons, List.length_append] at enough
      obtain ⟨bound, rfl⟩ := Nat.exists_eq_succ_of_ne_zero (by omega : bound ≠ 0)
      simp only [List.cons_append, List.append_assoc]
      rw [readStringTail, readEscapedUnit_pair writesHigh isHigh writesLow isLow]
      simp only
      rw [inner (char (pairedCharacter high low) :: read) bound (by omega)]
      simp

theorem exists_of_readString {points rest text : CodePoints}
    (found : readString points = some (text, rest)) :
    ∃ written, WritesString text written ∧ points = written ++ char '"' :: rest := by
  obtain ⟨meant, written, writes, isWritten, rfl⟩ := exists_of_readStringTail found
  exact ⟨written, writes, isWritten⟩

theorem readString_append {meant written : CodePoints} (writes : WritesString meant written)
    (rest : CodePoints) : readString (written ++ char '"' :: rest) = some (meant, rest) := by
  refine readStringTail_append writes rest [] ?_
  rw [List.length_append]
  omega

end Reckoner.Json
