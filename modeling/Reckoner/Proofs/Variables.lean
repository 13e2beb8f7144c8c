import Reckoner.Variables

/-!
# Reading a defined variable

A definition decides the value of its own name and of no other. What is read of a name is what the
table keeps with it.
-/

set_option autoImplicit false

namespace Reckoner.Variables

theorem lookup_map_entries {entries : List (String × Float)} (name other : String) (value : Float) :
    (entries.map fun entry => if entry.1 == name then (name, value) else entry).lookup other =
      if other = name then (entries.lookup other).map fun _ => value else entries.lookup other := by
  simp only [beq_iff_eq]
  induction entries with
  | nil => simp
  | cons entry entries inner =>
    obtain ⟨key, number⟩ := entry
    by_cases isName : key = name
    · subst isName
      by_cases same : other = key
      · simp [same]
      · simpa [same, List.lookup_cons, beq_false_of_ne same] using inner
    · by_cases same : other = key
      · subst same
        simp [isName]
      · simpa [isName, List.lookup_cons, beq_false_of_ne same] using inner

theorem lookup_eq_none_of_not_contains {table : Variables} {name : String}
    (absent : table.contains name = false) : table.entries.lookup name = none := by
  apply List.lookup_eq_none_iff.2
  intro entry member
  simp only [contains, List.any_eq_false, beq_iff_eq] at absent
  simpa [bne_iff_ne] using fun same => absent entry member same.symm

theorem contains_of_get? {table : Variables} {name : String} {value : Float}
    (kept : table.get? name = some value) : table.contains name = true := by
  cases known : table.contains name with
  | true => rfl
  | false =>
    rw [get?, lookup_eq_none_of_not_contains known] at kept
    cases kept

/-- If no variable is named twice, a name has every value that it is kept with. -/
theorem mem_entries_iff {table : Variables} (distinct : table.names.Nodup) (name : String)
    (value : Float) : (name, value) ∈ table.entries ↔ table.get? name = some value := by
  constructor
  · intro member
    obtain ⟨before, later, whole⟩ := List.append_of_mem member
    apply List.lookup_eq_some_iff.2
    refine ⟨before, later, whole, ?_⟩
    intro entry earlier
    rw [names, whole, List.map_append, List.nodup_append] at distinct
    exact bne_iff_ne.2 fun same => distinct.2.2 entry.1 (List.mem_map_of_mem earlier) name
      List.mem_cons_self same.symm
  · intro kept
    obtain ⟨before, later, whole, -⟩ := List.lookup_eq_some_iff.1 kept
    rw [whole]
    exact List.mem_append_right before List.mem_cons_self

theorem get?_define (table : Variables) (name other : String) (value : Float) :
    (table.define name value).get? other = if other = name then some value else table.get? other := by
  unfold define get?
  cases known : table.contains name with
  | true =>
    simp only [if_true, lookup_map_entries]
    by_cases same : other = name
    · subst same
      have isSome : (table.entries.lookup other).isSome = true := by
        simp only [contains, List.any_eq_true, beq_iff_eq] at known
        obtain ⟨entry, member, key⟩ := known
        exact List.lookup_isSome_iff.2 ⟨entry, member, by simp [key]⟩
      obtain ⟨number, found⟩ := Option.isSome_iff_exists.1 isSome
      simp [found]
    · simp [same]
  | false =>
    simp only [Bool.false_eq_true, if_false, List.lookup_append]
    by_cases same : other = name
    · subst same
      simp [lookup_eq_none_of_not_contains known]
    · simp [same, List.lookup_cons, beq_false_of_ne same]

theorem lookup_define_self (table : Variables) (name : String) (value : Float) :
    (table.define name value).lookup name = value := by
  simp [lookup, get?_define]

theorem lookup_define_ne (table : Variables) {name other : String} (different : other ≠ name)
    (value : Float) : (table.define name value).lookup other = table.lookup other := by
  simp [lookup, get?_define, different]

end Reckoner.Variables
