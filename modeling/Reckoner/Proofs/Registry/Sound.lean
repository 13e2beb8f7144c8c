import Reckoner.Proofs.Registry.Identifier

/-!
# Sound registries

No two sessions of a sound registry share an identifier, nor do two calculators, and every session
has a calculator. Every operation keeps a registry sound, because the identifier of a session that
is created was not given out before.
-/

set_option autoImplicit false

namespace Reckoner.Registry

/-- The identifiers under which calculators were made. -/
def keys (registry : Registry) : List String :=
  registry.calculators.map (·.1)

/-- The entry with an identifier, expired or not. -/
def entryAt? (registry : Registry) (id : String) : Option SessionEntry :=
  registry.entries.find? (·.id == id)

/-- Registries in which no two sessions share an identifier, nor two calculators, every session has
a calculator, and only identifiers that were given out are in use. -/
structure Sound (registry : Registry) : Prop where
  distinct : (registry.entries.map (·.id)).Nodup
  unique : registry.keys.Nodup
  kept : ∀ entry ∈ registry.entries, entry.id ∈ registry.keys
  numbered : ∀ id ∈ registry.keys, ∃ number ≤ registry.issued, id = sessionId number

/-- A registry without sessions, before its first identifier or after some. -/
theorem sound_empty (lifetime capacity : Int) (issued : Nat) :
    Sound { lifetime := lifetime, capacity := capacity, issued := issued } where
  distinct := List.nodup_nil
  unique := List.nodup_nil
  kept := fun _ member => absurd member List.not_mem_nil
  numbered := fun _ member => absurd member List.not_mem_nil

variable {registry : Registry}

/-! ## Entries and calculators -/

theorem find?_filter_of_distinct {entries : List SessionEntry}
    (distinct : (entries.map (·.id)).Nodup) (stays : SessionEntry → Bool) (id : String) :
    (entries.filter stays).find? (·.id == id) = (entries.find? (·.id == id)).filter stays := by
  induction entries with
  | nil => rfl
  | cons entry entries inner =>
    rw [List.map_cons, List.nodup_cons] at distinct
    have later := inner distinct.2
    by_cases same : entry.id = id
    · subst same
      have absent : entries.find? (·.id == entry.id) = none := by
        apply List.find?_eq_none.2
        intro other member equal
        exact distinct.1 (List.mem_map.2 ⟨other, member, beq_iff_eq.1 equal⟩)
      rw [absent] at later
      cases kept : stays entry with
      | true => simp [kept, Option.filter]
      | false => simp [kept, later, Option.filter]
    · cases kept : stays entry with
      | true => simp [kept, same, later]
      | false => simp [kept, same, later]

theorem entryAt?_release (sound : registry.Sound) (leaves : SessionEntry → Bool) (id : String) :
    (registry.release leaves).entryAt? id =
      (registry.entryAt? id).filter fun entry => !leaves entry :=
  find?_filter_of_distinct sound.distinct _ id

theorem id_of_entryAt? {id : String} {entry : SessionEntry}
    (found : registry.entryAt? id = some entry) : entry.id = id := by
  have test := List.find?_some found
  exact beq_iff_eq.1 test

theorem lookup_map_value {entries : List (String × Calculator)}
    (change : String → Calculator → Calculator) (id : String) :
    (entries.map fun (key, calculator) => (key, change key calculator)).lookup id =
      (entries.lookup id).map (change id) := by
  induction entries with
  | nil => rfl
  | cons entry entries inner =>
    obtain ⟨key, calculator⟩ := entry
    by_cases same : id = key
    · subst same
      simp
    · simpa [List.lookup_cons, beq_false_of_ne same] using inner

theorem calculator?_release (leaves : SessionEntry → Bool) (id : String) :
    (registry.release leaves).calculator? id = (registry.calculator? id).map fun calculator =>
      if (registry.entries.filter leaves).any (·.id == id) then calculator.close
      else calculator :=
  lookup_map_value (fun key calculator =>
    if (registry.entries.filter leaves).any (·.id == key) then calculator.close
    else calculator) id

theorem any_leaving_eq (sound : registry.Sound) (leaves : SessionEntry → Bool) (id : String) :
    (registry.entries.filter leaves).any (·.id == id) = (registry.entryAt? id).any leaves := by
  have found := find?_filter_of_distinct sound.distinct leaves id
  rw [← List.isSome_find?, found, entryAt?]
  cases registry.entries.find? (·.id == id) with
  | none => rfl
  | some entry =>
    cases left : leaves entry with
    | true => simp [Option.filter, left]
    | false => simp [Option.filter, left]

theorem calculator?_store (id other : String) (calculator : Calculator) :
    (registry.store id calculator).calculator? other =
      (registry.calculator? other).map fun before => if other = id then calculator else before := by
  have changed := @lookup_map_value registry.calculators
    (fun key before => if key == id then calculator else before) other
  simpa [calculator?, store] using changed

theorem calculator?_isSome_iff (id : String) :
    (registry.calculator? id).isSome = true ↔ id ∈ registry.keys := by
  simp only [calculator?, keys, List.lookup_isSome_iff, List.mem_map, beq_iff_eq]
  constructor
  · rintro ⟨entry, member, rfl⟩
    exact ⟨entry, member, rfl⟩
  · rintro ⟨entry, member, rfl⟩
    exact ⟨entry, member, rfl⟩

theorem entryAt?_touch (now : Int) (id other : String) :
    (registry.touch now id).entryAt? other = (registry.entryAt? other).map fun entry =>
      if other = id then { entry with lastAccess := now } else entry := by
  have sameTest : (fun entry : SessionEntry => entry.id == other) ∘ (fun entry =>
      if entry.id == id then { entry with lastAccess := now } else entry) = (·.id == other) := by
    funext entry
    simp only [Function.comp_apply]
    split
    · rfl
    · rfl
  unfold touch entryAt?
  rw [List.find?_map, sameTest]
  cases found : registry.entries.find? (·.id == other) with
  | none => rfl
  | some entry => simp [show entry.id = other from id_of_entryAt? found]

/-! ## Soundness is kept -/

theorem keys_release (leaves : SessionEntry → Bool) :
    (registry.release leaves).keys = registry.keys := by
  simp [release, keys, Function.comp_def]

theorem keys_store (id : String) (calculator : Calculator) :
    (registry.store id calculator).keys = registry.keys := by
  simp [store, keys, Function.comp_def]

namespace Sound

/-- Dropping sessions, changing calculators and giving out identifiers keep a registry sound. -/
theorem of_sublist (sound : registry.Sound) {after : Registry}
    (ids : (after.entries.map (·.id)).Sublist (registry.entries.map (·.id)))
    (keys : after.keys = registry.keys) (issued : registry.issued ≤ after.issued) :
    after.Sound where
  distinct := ids.nodup sound.distinct
  unique := keys ▸ sound.unique
  kept := by
    intro entry member
    obtain ⟨before, isBefore, same⟩ := List.mem_map.1 (ids.subset (List.mem_map_of_mem member))
    rw [keys, ← same]
    exact sound.kept before isBefore
  numbered := by
    intro id inUse
    obtain ⟨number, bound, same⟩ := sound.numbered id (keys ▸ inUse)
    exact ⟨number, Nat.le_trans bound issued, same⟩

theorem release (sound : registry.Sound) (leaves : SessionEntry → Bool) :
    (registry.release leaves).Sound :=
  sound.of_sublist (List.filter_sublist.map _) (keys_release leaves) (Nat.le_refl _)

theorem purge (sound : registry.Sound) (now : Int) : (registry.purge now).Sound :=
  sound.release _

theorem touch (sound : registry.Sound) (now : Int) (id : String) :
    (registry.touch now id).Sound := by
  have sameIds : (registry.touch now id).entries.map (·.id) = registry.entries.map (·.id) := by
    unfold Registry.touch
    rw [List.map_map]
    apply List.map_congr_left
    intro entry _
    simp only [Function.comp_apply]
    split
    · rfl
    · rfl
  exact sound.of_sublist (sameIds ▸ List.Sublist.refl _) rfl (Nat.le_refl _)

theorem store (sound : registry.Sound) (id : String) (calculator : Calculator) :
    (registry.store id calculator).Sound :=
  sound.of_sublist (List.Sublist.refl _) (keys_store id calculator) (Nat.le_refl _)

theorem issue (sound : registry.Sound) : { registry with issued := registry.issued + 1 }.Sound :=
  sound.of_sublist (List.Sublist.refl _) rfl (Nat.le_succ _)

end Sound

/-! ## Operations that create no session -/

/-- A sound registry with the same identifiers in use as another one, and with no more sessions. -/
structure Narrows (registry after : Registry) : Prop where
  sound : after.Sound
  lifetime : after.lifetime = registry.lifetime
  capacity : after.capacity = registry.capacity
  issued : after.issued = registry.issued
  keys : after.keys = registry.keys
  size : after.size ≤ registry.size

theorem Sound.narrows_self (sound : registry.Sound) : registry.Narrows registry :=
  ⟨sound, rfl, rfl, rfl, rfl, Nat.le_refl _⟩

theorem Narrows.trans {middle after : Registry} (first : registry.Narrows middle)
    (second : middle.Narrows after) : registry.Narrows after where
  sound := second.sound
  lifetime := second.lifetime.trans first.lifetime
  capacity := second.capacity.trans first.capacity
  issued := second.issued.trans first.issued
  keys := second.keys.trans first.keys
  size := Nat.le_trans second.size first.size

theorem Sound.narrows_release (sound : registry.Sound) (leaves : SessionEntry → Bool) :
    registry.Narrows (registry.release leaves) :=
  ⟨sound.release leaves, rfl, rfl, rfl, keys_release leaves, List.length_filter_le _ _⟩

theorem Sound.narrows_get (sound : registry.Sound) (now : Int) (id : String) :
    registry.Narrows (registry.get now id).2 := by
  have purged := sound.narrows_release (registry.isExpired now)
  have touched : registry.Narrows ((registry.purge now).touch now id) := by
    refine ⟨purged.sound.touch now id, rfl, rfl, rfl, purged.keys, ?_⟩
    simp only [size, Registry.touch, List.length_map]
    exact purged.size
  unfold Registry.get
  simp only
  split
  · split
    · exact touched
    · exact purged
  · exact purged

theorem Sound.narrows_delete (sound : registry.Sound) (id : String) :
    registry.Narrows (registry.delete id).2 := by
  unfold Registry.delete
  split
  · exact sound.narrows_release _
  · exact sound.narrows_self

theorem Sound.narrows_store (sound : registry.Sound) (id : String) (calculator : Calculator) :
    registry.Narrows (registry.store id calculator) :=
  ⟨sound.store id calculator, rfl, rfl, rfl, keys_store id calculator, Nat.le_refl _⟩

/-! ## Sessions that are created -/

theorem calculator?_eq_none_of_fresh (sound : registry.Sound) {number : Nat}
    (fresh : registry.issued < number) : registry.calculator? (sessionId number) = none := by
  rw [← Option.not_isSome_iff_eq_none, calculator?_isSome_iff]
  intro inUse
  obtain ⟨earlier, bound, same⟩ := sound.numbered _ inUse
  have sameNumber := sessionId_injective same
  omega

theorem entryAt?_eq_none_of_fresh (sound : registry.Sound) {number : Nat}
    (fresh : registry.issued < number) : registry.entryAt? (sessionId number) = none := by
  cases found : registry.entryAt? (sessionId number) with
  | none => rfl
  | some entry =>
    have inUse := sound.kept entry (List.mem_of_find?_eq_some found)
    rw [id_of_entryAt? found, ← calculator?_isSome_iff,
      calculator?_eq_none_of_fresh sound fresh] at inUse
    cases inUse

/-- The next identifier is not in use. -/
theorem next_ne_of_mem_keys (sound : registry.Sound) {id : String} (inUse : id ∈ registry.keys) :
    sessionId (registry.issued + 1) ≠ id := by
  rintro rfl
  have unused := calculator?_eq_none_of_fresh sound (Nat.lt_succ_self registry.issued)
  rw [← calculator?_isSome_iff, unused] at inUse
  cases inUse

theorem create_cases (registry : Registry) (now : Int) (settings : Settings) :
    (registry.capacity ≤ (registry.purge now).size ∧ registry.create now settings =
        (.error .full, { registry.purge now with issued := registry.issued + 1 })) ∨
      ((registry.purge now).size < registry.capacity ∧ registry.create now settings =
        (.ok (sessionId (registry.issued + 1)),
          { registry.purge now with
            issued := registry.issued + 1
            entries := (registry.purge now).entries ++ [⟨sessionId (registry.issued + 1), now⟩]
            calculators := (registry.purge now).calculators ++
              [(sessionId (registry.issued + 1), { settings := settings })] })) := by
  by_cases room : registry.capacity ≤ (registry.purge now).size
  · exact .inl ⟨room, if_pos room⟩
  · exact .inr ⟨Int.not_le.1 room, if_neg room⟩

theorem create_frame (registry : Registry) (now : Int) (settings : Settings) :
    (registry.create now settings).2.lifetime = registry.lifetime ∧
      (registry.create now settings).2.capacity = registry.capacity := by
  rcases registry.create_cases now settings with ⟨-, refused⟩ | ⟨-, created⟩
  · rw [refused]
    exact ⟨rfl, rfl⟩
  · rw [created]
    exact ⟨rfl, rfl⟩

theorem keys_create (registry : Registry) (now : Int) (settings : Settings) :
    (registry.create now settings).2.keys =
      match (registry.create now settings).1 with
      | .ok made => registry.keys ++ [made]
      | .error _ => registry.keys := by
  have purged : (registry.purge now).keys = registry.keys := keys_release _
  rcases registry.create_cases now settings with ⟨-, refused⟩ | ⟨-, created⟩
  · rw [refused]
    exact purged
  · rw [created, ← purged]
    simp [keys]

namespace Sound

theorem enter (sound : registry.Sound) {number : Nat} (fresh : registry.issued < number) (now : Int)
    (settings : Settings) :
    Registry.Sound { registry with
      issued := number
      entries := registry.entries ++ [⟨sessionId number, now⟩]
      calculators := registry.calculators ++ [(sessionId number, { settings := settings })] } := by
  refine ⟨?_, ?_, ?_, ?_⟩
  · have absent := List.find?_eq_none.1 (entryAt?_eq_none_of_fresh sound fresh)
    rw [List.map_append, List.nodup_append]
    refine ⟨sound.distinct, by simp, ?_⟩
    intro id member other isNew equal
    obtain ⟨entry, isEntry, rfl⟩ := List.mem_map.1 member
    exact absent entry isEntry (beq_iff_eq.2 (equal.trans (List.mem_singleton.1 isNew)))
  · have absent := calculator?_eq_none_of_fresh sound fresh
    rw [← Option.not_isSome_iff_eq_none, calculator?_isSome_iff] at absent
    simp only [keys, List.map_append]
    rw [List.nodup_append]
    refine ⟨sound.unique, by simp, ?_⟩
    intro id member other isNew equal
    have same : id = sessionId number := equal.trans (List.mem_singleton.1 isNew)
    exact absent (same ▸ member)
  · intro entry member
    simp only [keys, List.map_append, List.mem_append]
    rcases List.mem_append.1 member with before | isNew
    · exact .inl (sound.kept entry before)
    · exact .inr (by simp [List.mem_singleton.1 isNew])
  · intro id inUse
    simp only [keys, List.map_append, List.mem_append] at inUse
    rcases inUse with before | isNew
    · obtain ⟨earlier, bound, same⟩ := sound.numbered id before
      exact ⟨earlier, by simp only; omega, same⟩
    · exact ⟨number, Nat.le_refl _, by simpa using isNew⟩

theorem create (sound : registry.Sound) (now : Int) (settings : Settings) :
    (registry.create now settings).2.Sound := by
  rcases registry.create_cases now settings with ⟨-, refused⟩ | ⟨-, created⟩
  · rw [refused]
    exact (sound.purge now).issue
  · rw [created]
    exact (sound.purge now).enter (Nat.lt_succ_self registry.issued) now settings

end Sound

end Reckoner.Registry
