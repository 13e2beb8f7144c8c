import Reckoner.Proofs.Json.Levels
import Reckoner.Proofs.Json.Reading

/-!
# Nesting

What it takes for a text to be refused for its levels: it opens more arrays, objects and constants
than there are levels. It takes no more levels to write what has been read than the text opens, but
for one in which the names of an object are compared.
-/

set_option autoImplicit false

namespace Reckoner.Json

open Text CodePoint

section

variable {levels bound : Nat} {container : Container}

/-- Whether a character may open an array or an object, or begin the letters of a constant. -/
def opens (c : Char) : Bool :=
  c = '[' || c = '\x7b' || c = 'N' || c = 'I'

/-- The code points that may take a level of a reader. -/
def openings (points : CodePoints) : Nat :=
  points.countP (·.passes opens)

theorem openings_cons {c : Char} (isOpening : opens c = true) (rest : CodePoints) :
    openings (char c :: rest) = openings rest + 1 :=
  List.countP_cons_of_pos isOpening

theorem openings_le_of_sublist {part whole : CodePoints} (sublist : part.Sublist whole) :
    openings part ≤ openings whole :=
  sublist.countP_le

theorem openings_skipSpace (points : CodePoints) : openings (skipSpace points) ≤ openings points :=
  openings_le_of_sublist (List.dropWhile_sublist _)

theorem openings_le_append (before rest : CodePoints) :
    openings rest ≤ openings (before ++ rest) :=
  openings_le_of_sublist (List.sublist_append_right before rest)

theorem openings_behind {rest others : CodePoints} {point : CodePoint}
    (next : skipSpace rest = point :: others) : openings (skipSpace others) ≤ openings rest :=
  calc
    openings (skipSpace others) ≤ openings others := openings_skipSpace others
    _ ≤ openings (point :: others) := openings_le_of_sublist (List.sublist_cons_self point others)
    _ = openings (skipSpace rest) := by rw [next]
    _ ≤ openings rest := openings_skipSpace rest

/-- A constant has a letter that no other token begins with. -/
theorem openings_constant {word : String} {value : Foreign} (constant : (word, value) ∈ constants)
    (rest : CodePoints) : 0 < openings ((word : CodePoints) ++ rest) := by
  have each : ∀ constant ∈ constants, 0 < openings (constant.1 : CodePoints) := by decide
  exact Nat.lt_of_lt_of_le (each _ constant) (openings_le_of_sublist (List.sublist_append_left _ _))

theorem not_tooDeep_of_orMalformed {Value : Type} {found : Option Value} {goal : Prop}
    (deep : orMalformed found = .error (.tooDeep container)) : goal := by
  cases found with
  | none => cases deep
  | some value => cases deep

theorem error_of_map {Value Result : Type} {found : Except ReadError Value}
    {change : Value → Result} {error : ReadError} (failed : found.map change = .error error) :
    found = .error error := by
  cases found with
  | error other => rw [Except.error.inj failed]
  | ok value => cases failed

/-- What is too deep with a bound on the recursion opens more brackets than there are levels. -/
structure OpensBeyond (bound : Nat) : Prop where
  value : ∀ {levels points container},
    readValue levels bound points = .error (.tooDeep container) → levels < openings points
  elements : ∀ {levels read points container},
    readElements levels bound read points = .error (.tooDeep container) →
      levels < openings points
  members : ∀ {levels read points container},
    readMembers levels bound read points = .error (.tooDeep container) →
      levels < openings points

namespace OpensBeyond

variable (inner : OpensBeyond bound)

include inner

theorem value_succ {points : CodePoints}
    (deep : readValue levels (bound + 1) points = .error (.tooDeep container)) :
    levels < openings points := by
  unfold readValue at deep
  split at deep
  · exact not_tooDeep_of_orMalformed deep
  · rename_i rest
    rw [openings_cons rfl]
    split at deep
    · exact Nat.succ_pos _
    · split at deep
      · cases deep
      · have beyond := inner.elements (error_of_map deep)
        exact Nat.succ_lt_succ (Nat.lt_of_lt_of_le beyond (openings_skipSpace rest))
  · rename_i rest
    rw [openings_cons rfl]
    split at deep
    · exact Nat.succ_pos _
    · split at deep
      · cases deep
      · have beyond := inner.members (error_of_map deep)
        exact Nat.succ_lt_succ (Nat.lt_of_lt_of_le beyond (openings_skipSpace rest))
  · split at deep
    · rename_i result isConstant
      obtain ⟨value, rest⟩ := result
      obtain ⟨token, others, isWord, isWritten⟩ := exists_of_onToken isConstant
      obtain ⟨word, constant, same⟩ := exists_of_readWord isWord
      split at deep
      · rename_i none
        rw [none, isWritten _ same]
        exact openings_constant constant rest
      · cases deep
    · exact not_tooDeep_of_orMalformed deep

theorem elements_succ {read : List Foreign} {points : CodePoints}
    (deep : readElements levels (bound + 1) read points = .error (.tooDeep container)) :
    levels < openings points := by
  unfold readElements at deep
  split at deep
  · rename_i error isError
    cases deep
    exact inner.value isError
  · rename_i element rest isElement
    split at deep
    · rename_i others isComma
      obtain ⟨written, -, rfl⟩ := (readsWritten bound).value isElement
      calc
        levels < openings (skipSpace others) := inner.elements deep
        _ ≤ openings rest := openings_behind isComma
        _ ≤ openings (written ++ rest) := openings_le_append written rest
    · cases deep
    · cases deep

theorem members_succ {read : Members CodePoints} {points : CodePoints}
    (deep : readMembers levels (bound + 1) read points = .error (.tooDeep container)) :
    levels < openings points := by
  unfold readMembers at deep
  split at deep
  · rename_i tail
    split at deep
    · cases deep
    · rename_i name afterName isName
      obtain ⟨written, -, rfl⟩ := exists_of_readString isName
      split at deep
      · rename_i afterColon isColon
        have within : openings (skipSpace afterColon) ≤
            openings (char '"' :: (written ++ char '"' :: afterName)) :=
          calc
            openings (skipSpace afterColon) ≤ openings afterName := openings_behind isColon
            _ ≤ openings ((char '"' :: written ++ [char '"']) ++ afterName) :=
              openings_le_append _ afterName
            _ = openings (char '"' :: (written ++ char '"' :: afterName)) := by simp
        refine Nat.lt_of_lt_of_le ?_ within
        split at deep
        · rename_i error isError
          cases deep
          exact inner.value isError
        · rename_i value rest isValue
          split at deep
          · rename_i others isComma
            obtain ⟨written, -, isWritten⟩ := (readsWritten bound).value isValue
            rw [isWritten]
            calc
              levels < openings (skipSpace others) := inner.members deep
              _ ≤ openings rest := openings_behind isComma
              _ ≤ openings (written ++ rest) := openings_le_append written rest
          · cases deep
          · cases deep
      · cases deep
  · cases deep

end OpensBeyond

theorem opensBeyond (bound : Nat) : OpensBeyond bound := by
  induction bound with
  | zero => exact ⟨nofun, nofun, nofun⟩
  | succ bound inner => exact ⟨inner.value_succ, inner.elements_succ, inner.members_succ⟩

/-- A text that is too deep opens more brackets than there are levels. -/
theorem lt_openings_of_tooDeep {text : CodePoints}
    (deep : read levels text = .error (.tooDeep container)) : levels < openings text := by
  unfold read at deep
  split at deep
  · rename_i error isError
    cases deep
    have beyond := (opensBeyond _).value isError
    exact Nat.lt_of_lt_of_le beyond (openings_skipSpace _)
  · split at deep
    · cases deep
    · cases deep

end

/-! ## Values that have been read -/

theorem mem_set {members : Members CodePoints} {name : CodePoints} {value : Foreign}
    {member : CodePoints × Foreign} (inside : member ∈ members.set name value) :
    member ∈ members ∨ member = (name, value) := by
  unfold Members.set at inside
  split at inside
  · obtain ⟨old, there, same⟩ := List.mem_map.1 inside
    split at same
    · exact .inr same.symm
    · exact .inl (same ▸ there)
  · simpa using inside

theorem mem_foldl_set {read pairs : Members CodePoints} {member : CodePoints × Foreign}
    (inside : member ∈ pairs.foldl (fun members pair => members.set pair.1 pair.2) read) :
    member ∈ read ∨ member ∈ pairs := by
  induction pairs generalizing read with
  | nil => exact .inl inside
  | cons pair rest inner =>
    rcases inner inside with there | behind
    · rcases mem_set there with before | rfl
      · exact .inl before
      · exact .inr List.mem_cons_self
    · exact .inr (List.mem_cons_of_mem pair behind)

theorem mem_ofPairs {pairs : Members CodePoints} {member : CodePoints × Foreign}
    (inside : member ∈ Members.ofPairs pairs) : member ∈ pairs :=
  (mem_foldl_set inside).resolve_left (List.not_mem_nil)

/-- The levels that it takes to write a part. -/
def Part.levels : Part → Nat
  | .value shown => shown.levels
  | .elements list => elementLevels list
  | .members pairs => memberLevels pairs

theorem levels_word {words : List (String × Foreign)}
    (isList : words = literals ∨ words = constants) {word : String} {value : Foreign}
    (member : (word, value) ∈ words) : value.levels = 0 := by
  have each : ∀ entry ∈ words, entry.2.levels = 0 := by
    rcases isList with rfl | rfl
    · decide
    · decide
  exact each _ member

theorem WritesNumber.levels {negative : Bool} {value : Foreign} {characters : List Char}
    (writes : WritesNumber negative value characters) : value.levels = 0 := by
  cases writes with
  | whole _ _ => rfl
  | double _ _ => rfl

theorem openings_le_between (before points after : CodePoints) :
    openings points ≤ openings (before ++ points ++ after) :=
  openings_le_of_sublist (List.infix_append before points after).sublist

/-- The openings between brackets, and the one that is a bracket itself. -/
theorem openings_brackets {opening : Char} (isOpening : opens opening = true)
    (points : CodePoints) (closing : CodePoint) :
    openings points + 1 ≤ openings (.char opening :: points ++ [closing]) := by
  rw [List.cons_append, openings_cons isOpening]
  exact Nat.succ_le_succ (openings_le_of_sublist (List.sublist_append_left points [closing]))

/-- What has been read takes no more levels to write than are opened, and one for names. -/
theorem Writes.levels_le {levels : Nat} {part : Part} {points : CodePoints}
    (writes : Writes levels part points) : part.levels ≤ openings points + 1 := by
  induction writes with
  | literal literal =>
    rw [Part.levels, levels_word (.inl rfl) literal]
    exact Nat.zero_le _
  | constant constant =>
    rw [Part.levels, levels_word (.inr rfl) constant]
    exact Nat.zero_le _
  | number writes =>
    rw [Part.levels, writes.levels]
    exact Nat.zero_le _
  | negative writes =>
    rw [Part.levels, writes.levels]
    exact Nat.zero_le _
  | string writes => exact Nat.zero_le _
  | emptyArray isSpace => exact Nat.le_add_left 1 _
  | @array _ elements points _ inner =>
    have opened := openings_brackets (show opens '[' = true from rfl) points (.char ']')
    exact Nat.succ_le_succ (Nat.le_trans inner opened)
  | emptyObject isSpace => exact Nat.le_add_left 1 _
  | @object _ pairs points _ inner =>
    have opened := openings_brackets (show opens '\x7b' = true from rfl) points (.char '\x7d')
    have each : ∀ member ∈ Members.ofPairs pairs, member.2.levels ≤ openings points + 1 :=
      fun member inside => memberLevels_le_iff.1 inner member (mem_ofPairs inside)
    have whole := (levels_object_le_iff (Nat.le_add_left 1 _)).2 each
    exact Nat.le_trans whole (Nat.succ_le_succ opened)
  | @lastElement _ element before points after _ _ _ inner =>
    have within := openings_le_between before points after
    exact elementLevels_le_iff.2
      (List.forall_mem_singleton.2 (Nat.le_trans inner (Nat.succ_le_succ within)))
  | @element _ element elements before points after others _ _ _ _ inner innerOthers =>
    have first : openings points ≤ openings (before ++ points ++ after ++ .char ',' :: others) :=
      Nat.le_trans (openings_le_between before points after)
        (openings_le_of_sublist (List.sublist_append_left _ _))
    have rest : openings others ≤ openings (before ++ points ++ after ++ .char ',' :: others) :=
      openings_le_of_sublist
        ((List.sublist_cons_self _ _).trans (List.sublist_append_right _ _))
    exact Nat.max_le.2 ⟨Nat.le_trans inner (Nat.succ_le_succ first),
      Nat.le_trans innerOthers (Nat.succ_le_succ rest)⟩
  | @lastMember _ name written value before behind between points after _ _ _ _ _ _ inner =>
    have within := openings_le_between
      (before ++ .char '"' :: written ++ .char '"' :: behind ++ .char ':' :: between) points after
    exact memberLevels_le_iff.2
      (List.forall_mem_singleton.2 (Nat.le_trans inner (Nat.succ_le_succ within)))
  | @member _ name written value pairs before behind between points after others _ _ _ _ _ _ _ inner
      innerOthers =>
    have first := openings_le_between
      (before ++ .char '"' :: written ++ .char '"' :: behind ++ .char ':' :: between) points
      (after ++ .char ',' :: others)
    rw [← List.append_assoc] at first
    have rest : openings others ≤ openings (before ++ .char '"' :: written ++ .char '"' :: behind ++
        .char ':' :: between ++ points ++ after ++ .char ',' :: others) :=
      openings_le_of_sublist
        ((List.sublist_cons_self _ _).trans (List.sublist_append_right _ _))
    exact Nat.max_le.2 ⟨Nat.le_trans inner (Nat.succ_le_succ first),
      Nat.le_trans innerOthers (Nat.succ_le_succ rest)⟩

theorem IsText.levels_le {levels : Nat} {value : Foreign} {text : CodePoints}
    (isText : IsText levels value text) : value.levels ≤ openings text + 1 := by
  obtain ⟨before, points, after, -, writes, -, rfl⟩ := isText
  exact Nat.le_trans writes.levels_le (Nat.succ_le_succ (openings_le_between before points after))

end Reckoner.Json
