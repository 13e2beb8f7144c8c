/-!
# Variables

A table of variables keeps its names in the order of their first definition. A name that is not in
the table has the value zero.
-/

set_option autoImplicit false

namespace Reckoner

/-- A table of variables: names with their values, in the order of definition. -/
structure Variables where
  entries : List (String × Float)
  deriving Repr, DecidableEq

namespace Variables

/-- The table without variables. -/
def empty : Variables := ⟨[]⟩

def names (table : Variables) : List String :=
  table.entries.map (·.1)

def contains (table : Variables) (name : String) : Bool :=
  table.entries.any (·.1 == name)

def get? (table : Variables) (name : String) : Option Float :=
  table.entries.lookup name

/-- The value of a name, which is zero for a name that the table does not hold. -/
def lookup (table : Variables) (name : String) : Float :=
  (table.get? name).getD (Float.ofBits 0)

/-- The table with a name defined: in its place if the table holds it, and at the end otherwise. -/
def define (table : Variables) (name : String) (value : Float) : Variables :=
  if table.contains name then
    ⟨table.entries.map fun entry => if entry.1 == name then (name, value) else entry⟩
  else ⟨table.entries ++ [(name, value)]⟩

/-- The table with several names defined one after the other. -/
def ofList (definitions : List (String × Float)) : Variables :=
  definitions.foldl (fun table entry => table.define entry.1 entry.2) empty

theorem names_define (table : Variables) (name : String) (value : Float) :
    (table.define name value).names =
      if table.contains name then table.names else table.names ++ [name] := by
  simp only [define]
  split
  · simp only [names, List.map_map]
    apply List.map_congr_left
    intro entry _
    by_cases same : entry.1 == name
    · simp_all
    · simp_all
  · simp [names]

theorem contains_iff_mem_names (table : Variables) (name : String) :
    table.contains name = true ↔ name ∈ table.names := by
  simp [contains, names]

/-- A definition names no variable twice. -/
theorem nodup_names_define {table : Variables} (nodup : table.names.Nodup) (name : String)
    (value : Float) : (table.define name value).names.Nodup := by
  rw [names_define]
  split
  · exact nodup
  · rename_i absent
    rw [contains_iff_mem_names] at absent
    exact List.nodup_append.2 ⟨nodup, by simp, by
      intro first isName second isNew equal
      rw [List.mem_singleton.1 isNew] at equal
      exact absent (equal ▸ isName)⟩

end Variables

end Reckoner
