import Reckoner.Json.Foreign

/-!
# Levels

The levels that it takes to write a value are those of its deepest part, and one for each array and
object around it. With other texts a value takes as many.
-/

set_option autoImplicit false

namespace Reckoner.Json

open Text

section

variable {Str : Type}

theorem elementLevels_le_iff {elements : List (Json Str)} {bound : Nat} :
    elementLevels elements ≤ bound ↔ ∀ element ∈ elements, element.levels ≤ bound := by
  induction elements with
  | nil => exact iff_of_true (Nat.zero_le bound) nofun
  | cons element rest inner => rw [elementLevels, Nat.max_le, inner, List.forall_mem_cons]

theorem memberLevels_le_iff {members : Members Str} {bound : Nat} :
    memberLevels members ≤ bound ↔ ∀ member ∈ members, member.2.levels ≤ bound := by
  induction members with
  | nil => exact iff_of_true (Nat.zero_le bound) nofun
  | cons member rest inner => rw [memberLevels, Nat.max_le, inner, List.forall_mem_cons]

theorem levels_array_le_iff {elements : List (Json Str)} {bound : Nat} :
    (array elements).levels ≤ bound + 1 ↔ ∀ element ∈ elements, element.levels ≤ bound := by
  rw [levels, Nat.add_le_add_iff_right, elementLevels_le_iff]

/-- An object takes a level for its names if there is more than one, and then for each value. -/
theorem levels_object_le_iff {members : Members Str} {bound : Nat} (positive : 1 ≤ bound) :
    (object members).levels ≤ bound + 1 ↔ ∀ member ∈ members, member.2.levels ≤ bound := by
  have names : (if members.length ≤ 1 then 0 else 1) ≤ bound := by
    split
    · exact Nat.zero_le bound
    · exact positive
  rw [levels, Nat.add_le_add_iff_right, Nat.max_le, memberLevels_le_iff, and_iff_left names]

theorem levels_le_of_member {members : Members Str} {member : Str × Json Str}
    (inside : member ∈ members) : member.2.levels ≤ (object members).levels :=
  Nat.le_succ_of_le (Nat.le_trans (memberLevels_le_iff.1 (Nat.le_refl _) member inside)
    (Nat.le_max_left _ _))

end

/-! ## Values of characters -/

mutual

theorem levels_map {Str Other : Type} (change : Str → Other) :
    (value : Json Str) → (value.map change).levels = value.levels
  | null | bool _ | int _ | float _ | string _ => rfl
  | array elements => by rw [map, levels, levels, elementLevels_map change elements]
  | object members => by
    rw [map, levels, levels, memberLevels_map change members, length_mapMembers change members]

theorem elementLevels_map {Str Other : Type} (change : Str → Other) :
    (elements : List (Json Str)) →
      elementLevels (mapElements change elements) = elementLevels elements
  | [] => rfl
  | element :: rest => by
    rw [mapElements, elementLevels, elementLevels, levels_map change element,
      elementLevels_map change rest]

theorem memberLevels_map {Str Other : Type} (change : Str → Other) :
    (members : Members Str) →
      memberLevels (mapMembers change members) = memberLevels members
  | [] => rfl
  | (name, value) :: rest => by
    rw [mapMembers, memberLevels, memberLevels, levels_map change value,
      memberLevels_map change rest]

theorem length_mapMembers {Str Other : Type} (change : Str → Other) :
    (members : Members Str) → (mapMembers change members).length = members.length
  | [] => rfl
  | _ :: rest => congrArg (· + 1) (length_mapMembers change rest)

end

theorem levels_foreign (value : Json) : value.foreign.levels = value.levels :=
  levels_map _ value

end Reckoner.Json
