import Reckoner.Json.Foreign
import Reckoner.Numeral

/-!
# Values

Properties of a value that hold of it however deep. A value of characters is told by its code points.
A value that standard JSON has a text for holds no number but finite ones. A value is regular if no
object in it has two members of one name and if no whole number in it has too many digits to be read.
The order of an object's members has no meaning, so that a value may stand for the same one with all
members in the order of their names.
-/

set_option autoImplicit false

namespace Reckoner.Json

open Text

/-! ## Values of characters -/

section

variable {Str : Type}

theorem mapElements_eq {Other : Type} (change : Str → Other) (elements : List (Json Str)) :
    mapElements change elements = elements.map (map change) := by
  induction elements with
  | nil => rfl
  | cons element rest inner => rw [mapElements, inner, List.map_cons]

theorem mapMembers_eq {Other : Type} (change : Str → Other) (members : Members Str) :
    mapMembers change members =
      members.map fun member => (change member.1, member.2.map change) := by
  induction members with
  | nil => rfl
  | cons member rest inner => rw [mapMembers, inner, List.map_cons]

end

theorem foreign_array (elements : List Json) :
    (array elements).foreign = array (elements.map foreign) := by
  rw [foreign, map, mapElements_eq]
  rfl

theorem foreign_object (members : Members) :
    (object members).foreign =
      object (members.map fun member => ((member.1 : CodePoints), member.2.foreign)) := by
  rw [foreign, map, mapMembers_eq]
  rfl

mutual

/-- A value of characters stands for itself. -/
theorem native?_foreign : (value : Json) → value.foreign.native? = some value
  | null | bool _ | int _ | float _ => rfl
  | string text => by
    show (CodePoints.toString? text).map string = some (string text)
    rw [CodePoints.toString?_ofString, Option.map_some]
  | array elements => by
    show (nativeElements? (mapElements _ elements)).map array = _
    rw [nativeElements?_foreign elements, Option.map_some]
  | object members => by
    show (nativeMembers? (mapMembers _ members)).map object = _
    rw [nativeMembers?_foreign members, Option.map_some]

theorem nativeElements?_foreign : (elements : List Json) →
    nativeElements? (mapElements CodePoints.ofString elements) = some elements
  | [] => rfl
  | element :: rest => by
    have first : (element.map CodePoints.ofString).native? = some element := native?_foreign element
    rw [mapElements, nativeElements?, first, nativeElements?_foreign rest]
    rfl

theorem nativeMembers?_foreign : (members : Members) →
    nativeMembers? (mapMembers CodePoints.ofString members) = some members
  | [] => rfl
  | (name, value) :: rest => by
    have first : (value.map CodePoints.ofString).native? = some value := native?_foreign value
    rw [mapMembers, nativeMembers?, CodePoints.toString?_ofString, first,
      nativeMembers?_foreign rest]
    rfl

end

/-! ## Finite values -/

section

variable {Str : Type}

/-- A value in which every double is finite. -/
inductive IsFinite : Json Str → Prop where
  | null : IsFinite .null
  | bool (value : Bool) : IsFinite (.bool value)
  | int (value : Int) : IsFinite (.int value)
  | float {value : Float} (finite : value.isFinite = true) : IsFinite (.float value)
  | string (value : Str) : IsFinite (.string value)
  | array {elements : List (Json Str)} (finite : ∀ element ∈ elements, IsFinite element) :
      IsFinite (.array elements)
  | object {members : Members Str} (finite : ∀ member ∈ members, IsFinite member.2) :
      IsFinite (.object members)

theorem isFinite_array_iff {elements : List (Json Str)} :
    (array elements).IsFinite ↔ ∀ element ∈ elements, element.IsFinite := by
  constructor
  · intro finite
    cases finite with
    | array finite => exact finite
  · exact .array

theorem isFinite_object_iff {members : Members Str} :
    (object members).IsFinite ↔ ∀ member ∈ members, member.2.IsFinite := by
  constructor
  · intro finite
    cases finite with
    | object finite => exact finite
  · exact .object

/-- With other texts a value has the same numbers. -/
theorem IsFinite.map {Other : Type} (change : Str → Other) {value : Json Str}
    (finite : value.IsFinite) : (value.map change).IsFinite := by
  induction finite with
  | null => exact .null
  | bool value => exact .bool value
  | int value => exact .int value
  | float finite => exact .float finite
  | string value => exact .string _
  | array _ inner =>
    rw [Json.map, mapElements_eq]
    exact .array (List.forall_mem_map.2 inner)
  | object _ inner =>
    rw [Json.map, mapMembers_eq]
    exact .object (List.forall_mem_map.2 inner)

end

theorem isFinite_strings (texts : List String) : (strings texts).IsFinite := by
  refine .array fun element member => ?_
  obtain ⟨text, -, rfl⟩ := List.mem_map.1 member
  exact .string text

theorem isFinite_stringOrNull (text : Option String) : (stringOrNull text).IsFinite := by
  cases text with
  | none => exact .null
  | some text => exact .string text

/-! ## Regular values -/

/-- A value that its text stands for, with nothing in it that a reader refuses or leaves out. -/
inductive IsRegular : Json → Prop where
  | null : IsRegular .null
  | bool (value : Bool) : IsRegular (.bool value)
  | int {value : Int} (short : (Nat.toDigits 10 value.natAbs).length ≤ maxIntegerDigits) :
      IsRegular (.int value)
  | float (value : Float) : IsRegular (.float value)
  | string (value : String) : IsRegular (.string value)
  | array {elements : List Json} (regular : ∀ element ∈ elements, IsRegular element) :
      IsRegular (.array elements)
  | object {members : Members} (distinct : (members.map (·.1)).Nodup)
      (regular : ∀ member ∈ members, IsRegular member.2) : IsRegular (.object members)

theorem isRegular_strings (texts : List String) : (strings texts).IsRegular := by
  refine .array fun element member => ?_
  obtain ⟨text, -, rfl⟩ := List.mem_map.1 member
  exact .string text

theorem isRegular_stringOrNull (text : Option String) : (stringOrNull text).IsRegular := by
  cases text with
  | none => exact .null
  | some text => exact .string text

/-! ## Members in the order of their names -/

def Members.sorted (members : Members) : Members :=
  members.mergeSort fun first second => first.1 ≤ second.1

mutual

/-- The value with the members of every object in it in the order of their names. -/
def ordered : Json → Json
  | array elements => array (orderedElements elements)
  | object members => object (orderedMembers members).sorted
  | value => value

def orderedElements : List Json → List Json
  | [] => []
  | element :: rest => element.ordered :: orderedElements rest

def orderedMembers : Members → Members
  | [] => []
  | (name, value) :: rest => (name, value.ordered) :: orderedMembers rest

end

theorem mem_sorted {members : Members} {member : String × Json} :
    member ∈ members.sorted ↔ member ∈ members :=
  (List.mergeSort_perm members _).mem_iff

theorem nodup_sorted {members : Members} (distinct : (members.map (·.1)).Nodup) :
    (members.sorted.map (·.1)).Nodup :=
  ((List.mergeSort_perm members _).map _).nodup_iff.2 distinct

theorem ordered_array (elements : List Json) :
    (array elements).ordered = array (elements.map ordered) := by
  have each : orderedElements elements = elements.map ordered := by
    induction elements with
    | nil => rfl
    | cons element rest inner => rw [orderedElements, inner, List.map_cons]
  rw [ordered, each]

theorem ordered_object (members : Members) :
    (object members).ordered =
      object (members.sorted.map fun member => (member.1, member.2.ordered)) := by
  have each : orderedMembers members = members.map fun member => (member.1, member.2.ordered) := by
    induction members with
    | nil => rfl
    | cons member rest inner => rw [orderedMembers, inner, List.map_cons]
  rw [ordered, each, Members.sorted, Members.sorted, List.map_mergeSort]
  exact fun _ _ _ _ => rfl

end Reckoner.Json
