import Reckoner.Proofs.Json.Doubles
import Reckoner.Proofs.Json.Nesting
import Reckoner.Proofs.Json.Standard
import Reckoner.Proofs.Json.Strings
import Reckoner.Proofs.Json.Values

/-!
# The texts of values

The text of a regular value reads back as the value, with the members of its objects in the order of
their names. It is valid JSON if and only if the value holds no number but finite ones.
-/

set_option autoImplicit false

namespace Reckoner.Json

open Text CodePoint

/-! ## Items between brackets -/

theorem ofString_append (front back : String) :
    CodePoints.ofString (front ++ back) = (front : CodePoints) ++ (back : CodePoints) := by
  rw [CodePoints.ofString, String.toList_append, List.map_append]
  rfl

theorem isSpace_newline (level : Nat) : IsSpace (newline level) := by
  rw [CodePoints.ofString, newline, String.toList_ofList]
  refine List.forall_mem_map.2 (List.forall_mem_cons.2 ⟨rfl, fun c member => ?_⟩)
  rw [List.eq_of_mem_replicate member]
  rfl

/-- Items with a comma behind each but the last one, and with white space in front of each and
behind the last one. -/
def spread (before after : CodePoints) : List CodePoints → CodePoints
  | [] => []
  | [item] => before ++ item ++ after
  | item :: rest => before ++ item ++ char ',' :: spread before after rest

theorem points_intercalate {before after : String} {items : List String} (some : items ≠ []) :
    CodePoints.ofString (before ++ String.intercalate ("," ++ before) items ++ after) =
      spread before after (items.map CodePoints.ofString) := by
  induction items with
  | nil => exact absurd rfl some
  | cons item rest inner =>
    cases rest with
    | nil => simp [spread, ofString_append]
    | cons next others =>
      have comma : CodePoints.ofString "," = [char ','] := rfl
      rw [String.intercalate_cons_cons, List.map_cons, List.map_cons, spread, ← List.map_cons,
        ← inner (List.cons_ne_nil next others)]
      · simp [ofString_append, comma]
      · exact nofun

theorem points_block {level : Nat} {opening closing : String} {items : List String}
    (some : items ≠ []) :
    CodePoints.ofString (block level opening closing items) =
      (opening : CodePoints) ++ spread (newline (level + 1)) (newline level)
        (items.map CodePoints.ofString) ++ (closing : CodePoints) := by
  have filled : items.isEmpty = false := List.isEmpty_eq_false_iff.2 some
  rw [block, filled, if_neg Bool.false_ne_true, ← points_intercalate some]
  simp [ofString_append]

theorem points_stringText (text : String) :
    CodePoints.ofString (stringText text) =
      char '"' :: (text.toList.flatMap escapeChar).map char ++ [char '"'] := by
  rw [CodePoints.ofString, toList_stringText, List.map_append]
  rfl

/-- The text of a member of an object. -/
def memberText (level : Nat) (member : String × Json) : String :=
  stringText member.1 ++ ": " ++ textAt level member.2

theorem textAt_array (level : Nat) (elements : List Json) :
    textAt level (array elements) = block level "[" "]" (elements.map (textAt (level + 1))) := by
  have each : elementTexts (level + 1) elements = elements.map (textAt (level + 1)) := by
    induction elements with
    | nil => rfl
    | cons element rest inner => rw [elementTexts, inner, List.map_cons]
  rw [textAt, each]

theorem textAt_object (level : Nat) (members : Members) :
    textAt level (object members) =
      block level "\x7b" "\x7d" (members.sorted.map (memberText (level + 1))) := by
  have each : memberTexts (level + 1) members =
      members.map fun member => (member.1, memberText (level + 1) member) := by
    induction members with
    | nil => rfl
    | cons member rest inner => rw [memberTexts, inner, List.map_cons]; rfl
  have order : (members.map fun member => (member.1, memberText (level + 1) member)).mergeSort
        (fun first second => first.1 ≤ second.1) =
      members.sorted.map fun member => (member.1, memberText (level + 1) member) := by
    rw [Members.sorted, List.map_mergeSort]
    exact fun _ _ _ _ => rfl
  rw [textAt, each, order, List.map_map]
  rfl

/-! ## What a text writes -/

variable {levels level : Nat}

theorem Writes.spread_elements {before after : CodePoints} (isBefore : IsSpace before)
    (isAfter : IsSpace after) {elements : List Json} (some : elements ≠ [])
    {shown : Json → CodePoints}
    (each : ∀ element ∈ elements, Writes levels (.value element.ordered.foreign) (shown element)) :
    Writes levels (.elements (elements.map fun element => element.ordered.foreign))
      (spread before after (elements.map shown)) := by
  induction elements with
  | nil => exact absurd rfl some
  | cons element rest inner =>
    have first := each element List.mem_cons_self
    cases rest with
    | nil => exact .lastElement isBefore first isAfter
    | cons next others =>
      have behind := inner (List.cons_ne_nil next others)
        fun other member => each other (List.mem_cons_of_mem element member)
      have whole := Writes.element isBefore first isSpace_nil behind
      rwa [List.append_nil] at whole

/-- The code points of a member: its name, a colon with a space behind it, and its value. -/
def memberPoints (shown : Json → CodePoints) (member : String × Json) : CodePoints :=
  char '"' :: (member.1.toList.flatMap escapeChar).map char ++
    char '"' :: char ':' :: char ' ' :: shown member.2

theorem points_memberText (level : Nat) (member : String × Json) :
    CodePoints.ofString (memberText level member) =
      memberPoints (fun value => CodePoints.ofString (textAt level value)) member := by
  have behind : CodePoints.ofString ": " = [char ':', char ' '] := rfl
  simp [memberText, memberPoints, ofString_append, points_stringText, behind]

/-- A member with its value in order. -/
def orderedMember (member : String × Json) : CodePoints × Foreign :=
  (member.1, member.2.ordered.foreign)

theorem Writes.spread_members {before after : CodePoints} (isBefore : IsSpace before)
    (isAfter : IsSpace after) {members : Members} (some : members ≠ [])
    {shown : Json → CodePoints}
    (each : ∀ member ∈ members, Writes levels (.value member.2.ordered.foreign) (shown member.2)) :
    Writes levels (.members (members.map orderedMember))
      (spread before after (members.map (memberPoints shown))) := by
  have space : IsSpace [char ' '] := by simp [IsSpace, passes, isJsonSpace]
  induction members with
  | nil => exact absurd rfl some
  | cons member rest inner =>
    have first := each member List.mem_cons_self
    have name := writesString_escaped member.1.toList
    cases rest with
    | nil =>
      have whole := Writes.lastMember isBefore name isSpace_nil space first isAfter
      simpa [spread, memberPoints, orderedMember, CodePoints.ofString] using whole
    | cons next others =>
      have behind := inner (List.cons_ne_nil next others)
        fun other inside => each other (List.mem_cons_of_mem member inside)
      have whole := Writes.member isBefore name isSpace_nil space first isSpace_nil behind
      simpa [spread, memberPoints, orderedMember, CodePoints.ofString] using whole

theorem foldl_set_of_distinct {read pairs : Members CodePoints}
    (distinct : ((read ++ pairs).map (·.1)).Nodup) :
    pairs.foldl (fun members pair => members.set pair.1 pair.2) read = read ++ pairs := by
  induction pairs generalizing read with
  | nil => rw [List.foldl_nil, List.append_nil]
  | cons pair pairs inner =>
    have new : read.any (·.1 == pair.1) = false := by
      rw [List.any_eq_false]
      intro member inside same
      rw [List.map_append, List.nodup_append] at distinct
      exact distinct.2.2 member.1 (List.mem_map_of_mem inside) pair.1
        (List.mem_map_of_mem List.mem_cons_self) (eq_of_beq same)
    have appended : read.set pair.1 pair.2 = read ++ [pair] := by
      rw [Members.set, new, if_neg Bool.false_ne_true]
    have whole : read ++ pair :: pairs = read ++ [pair] ++ pairs := by simp
    rw [List.foldl_cons, appended, inner (whole ▸ distinct), whole]

/-- Pairs with different names are the members that they make. -/
theorem Members.ofPairs_of_distinct {pairs : Members CodePoints} (distinct : (pairs.map (·.1)).Nodup) :
    Members.ofPairs pairs = pairs :=
  foldl_set_of_distinct distinct

theorem toList_toString (number : Int) :
    (toString number).toList =
      (if number < 0 then ['-'] else []) ++ Nat.toDigits 10 number.natAbs := by
  cases number with
  | ofNat number => exact String.toList_ofList
  | negSucc number => simp [Int.toString_eq_repr, Int.repr, Nat.repr, Int.negSucc_lt_zero]

theorem writes_int {number : Int}
    (short : (Nat.toDigits 10 number.natAbs).length ≤ maxIntegerDigits) :
    Writes levels (.value (.int number)) (toString number) := by
  have written := digitsValue_toDigits number.natAbs
  have isWhole := isWhole_toDigits number.natAbs
  rw [CodePoints.ofString, toList_toString]
  rcases Int.lt_or_le number 0 with below | above
  · have writes : WritesNumber true _ _ := .whole isWhole short
    rw [written, if_pos rfl, Int.ofNat_natAbs_of_nonpos below.le, Int.neg_neg] at writes
    rw [if_pos below]
    exact .negative writes
  · have writes : WritesNumber false _ _ := .whole isWhole short
    rw [written, if_neg Bool.false_ne_true, Int.natAbs_of_nonneg above] at writes
    rw [if_neg (Int.not_lt.2 above)]
    exact .number writes

theorem writes_array {elements : List Json}
    (each : ∀ element ∈ elements,
      Writes levels (.value element.ordered.foreign) (textAt (level + 1) element)) :
    Writes (levels + 1) (.value (array elements).ordered.foreign) (textAt level (array elements)) := by
  rw [textAt_array, ordered_array, foreign_array, List.map_map]
  by_cases some : elements = []
  · subst some
    have writes : Writes (levels + 1) _ _ := .emptyArray isSpace_nil
    simpa [block, CodePoints.ofString] using writes
  · rw [points_block (by simpa using some), List.map_map]
    exact .array (.spread_elements (isSpace_newline _) (isSpace_newline _) some each)

/-- Names of characters that differ are different names of code points. -/
theorem nodup_orderedMember {members : Members} (distinct : (members.map (·.1)).Nodup) :
    ((members.map orderedMember).map (·.1)).Nodup := by
  have names : (members.map orderedMember).map (·.1) =
      (members.map (·.1)).map CodePoints.ofString := by
    rw [List.map_map, List.map_map]
    rfl
  rw [names]
  exact distinct.map fun _ _ => CodePoints.ofString_inj.1

theorem writes_object {members : Members} (distinct : (members.map (·.1)).Nodup)
    (each : ∀ member ∈ members,
      Writes levels (.value member.2.ordered.foreign) (textAt (level + 1) member.2)) :
    Writes (levels + 1) (.value (object members).ordered.foreign)
      (textAt level (object members)) := by
  have names := nodup_orderedMember (nodup_sorted distinct)
  have shown : CodePoints.ofString ∘ memberText (level + 1) =
      memberPoints fun value => CodePoints.ofString (textAt (level + 1) value) :=
    funext (points_memberText (level + 1))
  have whole : (object members).ordered.foreign =
      object (Members.ofPairs (members.sorted.map orderedMember)) := by
    rw [Members.ofPairs_of_distinct names, ordered_object, foreign_object, List.map_map]
    rfl
  rw [textAt_object, whole]
  by_cases some : members.sorted = []
  · have writes : Writes (levels + 1) _ _ := .emptyObject isSpace_nil
    simpa [some, block, Members.ofPairs, CodePoints.ofString] using writes
  · rw [points_block (by simpa using some), List.map_map, shown]
    exact .object (.spread_members (isSpace_newline _) (isSpace_newline _) some
      fun member inside => each member (mem_sorted.1 inside))

/-- The text of a regular value writes it with its members in order, on as many levels as it has
parts. -/
theorem writes_textAt {value : Json} (regular : value.IsRegular) (enough : sizeOf value ≤ levels) :
    Writes levels (.value value.ordered.foreign) (textAt level value) := by
  induction regular generalizing level levels with
  | null => exact @Writes.literal levels "null" .null (by simp [literals])
  | bool truth =>
    cases truth with
    | false => exact @Writes.literal levels "false" (.bool false) (by simp [literals])
    | true => exact @Writes.literal levels "true" (.bool true) (by simp [literals])
  | int short => exact writes_int short
  | float number =>
    rw [Json.float.sizeOf_spec] at enough
    obtain ⟨fewer, rfl⟩ := Nat.exists_eq_add_of_le' (Nat.le_trans (Nat.le_add_right 1 _) enough)
    exact writes_floatText fewer number
  | string text =>
    rw [textAt, points_stringText]
    exact .string (writesString_escaped text.toList)
  -- An element and a member's value are smaller than their whole, so one level less is enough.
  | array _ inner =>
    rw [Json.array.sizeOf_spec] at enough
    obtain ⟨fewer, rfl⟩ := Nat.exists_eq_add_of_le' (Nat.le_trans (Nat.le_add_right 1 _) enough)
    refine writes_array fun element member => inner element member ?_
    have smaller := List.sizeOf_lt_of_mem member
    omega
  | object distinct _ inner =>
    rw [Json.object.sizeOf_spec] at enough
    obtain ⟨fewer, rfl⟩ := Nat.exists_eq_add_of_le' (Nat.le_trans (Nat.le_add_right 1 _) enough)
    refine writes_object distinct fun member inside => inner member inside ?_
    have part : sizeOf member.2 < sizeOf member := by
      cases member with
      | mk name value =>
        show sizeOf value < 1 + sizeOf name + sizeOf value
        omega
    have smaller := List.sizeOf_lt_of_mem inside
    omega

theorem isText_text {value : Json} (regular : value.IsRegular) :
    IsText (sizeOf value) value.ordered.foreign (text value) :=
  ⟨[], _, [], isSpace_nil, @writes_textAt _ 0 value regular (Nat.le_refl _), isSpace_nil,
    by simp [text]⟩

/-- The text of a regular value reads back as the value, with its members in order. -/
theorem read?_text {value : Json} (regular : value.IsRegular) :
    read? (text value) = some value.ordered := by
  -- A reader gets as many levels as the text has characters, and no text opens more of them.
  rcases @read_of_isText (text value).length _ _ _ (isText_text regular) with
    found | ⟨container, deep⟩
  · rw [read?, found]
    exact native?_foreign value.ordered
  · have beyond := lt_openings_of_tooDeep deep
    have within : openings (text value) ≤ (text value).length := by
      rw [← String.length_toList, ← List.length_map char]
      exact List.countP_le_length
    omega

/-! ## Standard texts -/

/-- Code points in which none of the letters stands outside of strings exactly under a condition. -/
def BareUnless (sound : Prop) (points : CodePoints) : Prop :=
  ∃ count, Bare points count ∧ (count = 0 ↔ sound)

theorem BareUnless.append {sound other : Prop} {front back : CodePoints}
    (first : BareUnless sound front) (second : BareUnless other back) :
    BareUnless (sound ∧ other) (front ++ back) := by
  obtain ⟨count, bareFront, soundFront⟩ := first
  obtain ⟨more, bareBack, soundBack⟩ := second
  refine ⟨count + more, bareFront.append bareBack, ?_⟩
  rw [Nat.add_eq_zero_iff, soundFront, soundBack]

theorem BareUnless.between {sound : Prop} {before points after : CodePoints}
    (isBefore : Bare before 0) (bare : BareUnless sound points) (isAfter : Bare after 0) :
    BareUnless sound (before ++ points ++ after) := by
  obtain ⟨count, bare, sound⟩ := bare
  have whole := (isBefore.append bare).append isAfter
  rw [Nat.zero_add] at whole
  exact ⟨count, whole, sound⟩

theorem Bare.unless {sound : Prop} {points : CodePoints} (bare : Bare points 0)
    (holds : sound) : BareUnless sound points :=
  ⟨0, bare, iff_of_true rfl holds⟩

theorem BareUnless.spread {Entry : Type} {before after : CodePoints} (isBefore : IsSpace before)
    (isAfter : IsSpace after) {sound : Entry → Prop} {shown : Entry → CodePoints}
    {entries : List Entry} (some : entries ≠ [])
    (each : ∀ entry ∈ entries, BareUnless (sound entry) (shown entry)) :
    BareUnless (∀ entry ∈ entries, sound entry) (spread before after (entries.map shown)) := by
  induction entries with
  | nil => exact absurd rfl some
  | cons entry rest inner =>
    have first := each entry List.mem_cons_self
    rw [List.forall_mem_cons]
    cases rest with
    | nil =>
      have bare := first.between isBefore.quiet.bare isAfter.quiet.bare
      simpa [Json.spread] using bare
    | cons next others =>
      have behind := inner (List.cons_ne_nil next others)
        fun other member => each other (List.mem_cons_of_mem entry member)
      have comma : Bare [char ','] 0 := Quiet.bare (by decide)
      have bare := (first.between isBefore.quiet.bare comma).append behind
      simpa [Json.spread] using bare

theorem bareUnless_block {Entry : Type} {opening closing : String}
    (quietOpening : Quiet opening) (quietClosing : Quiet closing)
    {sound : Entry → Prop} {shown : Entry → String} {entries : List Entry}
    (each : ∀ entry ∈ entries, BareUnless (sound entry) (shown entry)) :
    BareUnless (∀ entry ∈ entries, sound entry)
      (block level opening closing (entries.map shown)) := by
  by_cases some : entries = []
  · subst some
    have bare := quietOpening.bare.append quietClosing.bare
    simpa [block, ofString_append] using @Bare.unless (∀ entry ∈ [], sound entry) _ bare nofun
  · rw [points_block (by simpa using some), List.map_map]
    exact (BareUnless.spread (isSpace_newline _) (isSpace_newline _) some each).between
      quietOpening.bare quietClosing.bare

theorem bareUnless_floatText (number : Float) :
    BareUnless (number.isFinite = true) (floatText number) := by
  obtain ⟨nan, -, notFinite⟩ | ⟨-, infinite, notFinite⟩ | ⟨-, -, finite⟩ := Binary64.classes number
  · rw [floatText_of_isNaN nan]
    exact ⟨2, bare_notANumber, by simp [notFinite]⟩
  · rw [floatText_of_isInf infinite]
    refine ⟨1, ?_, by simp [notFinite]⟩
    split
    · exact bare_negativeInfinity
    · exact bare_infinity
  · obtain ⟨numeral, isNumeral, -, chars, -⟩ :=
      exists_numeral ((Binary64.isFinite_iff number).1 finite)
    rw [CodePoints.ofString, floatText_of_isFinite finite, chars, List.map_append]
    refine Bare.unless (Quiet.bare (.append ?_ isNumeral.quiet)) finite
    split
    · decide
    · decide

/-- In the text of a regular value none of the letters stands outside of strings exactly if every
number in the value is finite. -/
theorem bareUnless_textAt {value : Json} (regular : value.IsRegular) :
    BareUnless value.IsFinite (textAt level value) := by
  induction regular generalizing level with
  | null =>
    have quiet : Quiet ("null" : CodePoints) := by decide
    exact quiet.bare.unless .null
  | bool truth =>
    have quiet : Quiet (if truth then "true" else "false" : String) := by
      cases truth with
      | false => decide
      | true => decide
    exact quiet.bare.unless (.bool truth)
  | int _ =>
    rw [textAt, CodePoints.ofString, toList_toString, List.map_append]
    refine Bare.unless (Quiet.bare (.append ?_ (areDigits_toDigits _).quiet)) (.int _)
    split
    · decide
    · decide
  | float number =>
    obtain ⟨count, bare, sound⟩ := bareUnless_floatText number
    refine ⟨count, bare, sound.trans ⟨.float, fun finite => ?_⟩⟩
    cases finite with
    | float finite => exact finite
  | string text =>
    rw [textAt, points_stringText]
    exact (writesString_escaped text.toList).bare.unless (.string text)
  | array _ inner =>
    rw [textAt_array, isFinite_array_iff]
    exact bareUnless_block (by decide) (by decide) fun element member => inner element member
  | @object members _ _ inner =>
    have same : (∀ member ∈ members, member.2.IsFinite) ↔
        ∀ member ∈ members.sorted, member.2.IsFinite := by simp only [mem_sorted]
    rw [textAt_object, isFinite_object_iff, same]
    refine bareUnless_block (by decide) (by decide) fun member inside => ?_
    have name := (writesString_escaped member.1.toList).bare
    have colon : Bare [char ':', char ' '] 0 := Quiet.bare (by decide)
    have value := @inner member (mem_sorted.1 inside) (level + 1)
    have bare := value.between (name.append colon) .nil
    rw [points_memberText]
    simpa [memberPoints] using bare

/-- The text of a regular value is valid JSON if and only if every number in the value is finite. -/
theorem isStandardText_text_iff {value : Json} (regular : value.IsRegular) :
    IsStandardText (text value) ↔ value.IsFinite := by
  obtain ⟨count, bare, sound⟩ := @bareUnless_textAt 0 value regular
  rw [isStandardText_iff (isText_text regular) bare, sound]

end Reckoner.Json
