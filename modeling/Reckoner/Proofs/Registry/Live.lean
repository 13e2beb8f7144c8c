import Reckoner.Proofs.Registry.Sound

/-!
# Live sessions

A session is live at a moment when the registry holds it and its lifetime has not passed. What every
operation on a registry does is said here of the live sessions alone: which entries have expired and
are still there plays no part in it. So a registry that drops expired sessions late cannot be told
from one that drops them on time, but by its size and by deletions.
-/

set_option autoImplicit false

namespace Reckoner

/-- A session that has not expired: the moment of its last access, and its calculator. -/
structure LiveSession where
  lastAccess : Int
  calculator : Calculator

namespace LiveSession

def isWithin (lifetime now : Int) (session : LiveSession) : Bool :=
  now - session.lastAccess ≤ lifetime

end LiveSession

namespace Registry

/-- The session with an identifier, if it is there and its lifetime has not passed. -/
def live? (registry : Registry) (now : Int) (id : String) : Option LiveSession :=
  ((registry.entryAt? id).bind fun entry =>
    (registry.calculator? id).map (⟨entry.lastAccess, ·⟩)).filter (·.isWithin registry.lifetime now)

variable {registry : Registry}

theorem live?_later (now : Int) (span : Nat) (id : String) :
    registry.live? (now + span) id =
      (registry.live? now id).filter (·.isWithin registry.lifetime (now + span)) := by
  unfold live?
  rw [Option.filter_filter]
  congr 1
  funext session
  simp only [LiveSession.isWithin, ← Bool.decide_and, decide_eq_decide]
  omega

/-! ## Sessions that leave -/

theorem live?_of_no_entry {id : String} (absent : registry.entryAt? id = none) (now : Int) :
    registry.live? now id = none := by
  simp [live?, absent]

theorem live?_of_entry (sound : registry.Sound) {id : String} {entry : SessionEntry}
    (found : registry.entryAt? id = some entry) :
    ∃ calculator, registry.calculator? id = some calculator ∧ ∀ now, registry.live? now id =
      (some ⟨entry.lastAccess, calculator⟩ : Option LiveSession).filter
        (·.isWithin registry.lifetime now) := by
  have inUse : id ∈ registry.keys :=
    id_of_entryAt? found ▸ sound.kept entry (List.mem_of_find?_eq_some found)
  obtain ⟨calculator, made⟩ := Option.isSome_iff_exists.1 ((calculator?_isSome_iff id).2 inUse)
  exact ⟨calculator, made, fun now => by simp [live?, found, made]⟩

theorem live?_release (sound : registry.Sound) (leaves : SessionEntry → Bool) (now : Int)
    (id : String) :
    (registry.release leaves).live? now id =
      if (registry.entryAt? id).any leaves then none else registry.live? now id := by
  unfold live?
  rw [entryAt?_release sound, calculator?_release, any_leaving_eq sound]
  cases registry.entryAt? id with
  | none => rfl
  | some entry =>
    cases left : leaves entry with
    | true => simp [Option.filter, left]
    | false =>
      simp [Option.filter, left]
      rfl

theorem isExpired_eq (now : Int) (entry : SessionEntry) (calculator : Calculator) :
    registry.isExpired now entry =
      !LiveSession.isWithin registry.lifetime now ⟨entry.lastAccess, calculator⟩ := by
  rw [isExpired, LiveSession.isWithin, ← decide_not, decide_eq_decide]
  exact Int.not_le.symm

/-- Dropping the expired sessions takes no live one away. -/
theorem live?_purge (sound : registry.Sound) (now : Int) (id : String) :
    (registry.purge now).live? now id = registry.live? now id := by
  unfold purge
  rw [live?_release sound]
  cases found : registry.entryAt? id with
  | none => rfl
  | some entry =>
    obtain ⟨calculator, -, live⟩ := live?_of_entry sound found
    rw [live, Option.any_some, isExpired_eq now entry calculator]
    cases within : LiveSession.isWithin registry.lifetime now ⟨entry.lastAccess, calculator⟩ with
    | true => rfl
    | false => simp [Option.filter, within]

theorem entryAt?_purge_isSome (sound : registry.Sound) (now : Int) (id : String) :
    ((registry.purge now).entryAt? id).isSome = (registry.live? now id).isSome := by
  unfold purge
  rw [entryAt?_release sound]
  cases found : registry.entryAt? id with
  | none => rw [live?_of_no_entry found]; rfl
  | some entry =>
    obtain ⟨calculator, -, live⟩ := live?_of_entry sound found
    rw [live, Option.filter, Option.filter, isExpired_eq now entry calculator]
    cases LiveSession.isWithin registry.lifetime now ⟨entry.lastAccess, calculator⟩ with
    | true => rfl
    | false => rfl

theorem live?_delete (sound : registry.Sound) (now : Int) (id other : String) :
    (registry.delete id).2.live? now other =
      if other = id then none else registry.live? now other := by
  unfold delete
  split
  · rw [live?_release sound]
    cases found : registry.entryAt? other with
    | none => simp [live?_of_no_entry found]
    | some entry => simp [id_of_entryAt? found]
  · rename_i absent
    split
    · rename_i same
      subst same
      apply live?_of_no_entry
      simpa [entryAt?, holds] using absent
    · rfl

theorem live?_clear (sound : registry.Sound) (now : Int) (id : String) :
    registry.clear.live? now id = none := by
  unfold clear
  rw [live?_release sound]
  cases found : registry.entryAt? id with
  | none => simp [live?_of_no_entry found]
  | some entry => rfl

/-! ## Sessions that stay or come -/

theorem live?_store (now : Int) (id other : String) (calculator : Calculator) :
    (registry.store id calculator).live? now other =
      if other = id then
        (registry.live? now other).map fun session => { session with calculator := calculator }
      else registry.live? now other := by
  have sameEntry : (registry.store id calculator).entryAt? other = registry.entryAt? other := rfl
  have sameLifetime : (registry.store id calculator).lifetime = registry.lifetime := rfl
  unfold live?
  rw [calculator?_store, sameEntry, sameLifetime]
  cases registry.entryAt? other with
  | none => simp
  | some entry =>
    cases registry.calculator? other with
    | none => simp
    | some before =>
      simp only [Option.bind_some, Option.map_some, Option.filter, LiveSession.isWithin]
      by_cases same : other = id
      · by_cases within : now - entry.lastAccess ≤ registry.lifetime
        · simp [same, within]
        · simp [within]
      · simp [same]

theorem live?_touch (now later : Int) (id other : String) :
    (registry.touch now id).live? later other =
      if other = id then
        ((registry.entryAt? other).bind fun _ => (registry.calculator? other).map (⟨now, ·⟩)).filter
          (·.isWithin registry.lifetime later)
      else registry.live? later other := by
  have sameCalculator : (registry.touch now id).calculator? other = registry.calculator? other :=
    rfl
  have sameLifetime : (registry.touch now id).lifetime = registry.lifetime := rfl
  unfold live?
  rw [entryAt?_touch, sameCalculator, sameLifetime]
  cases registry.entryAt? other with
  | none => simp
  | some entry => split <;> rfl

theorem exists_of_live? {now : Int} {id : String} {session : LiveSession}
    (live : registry.live? now id = some session) :
    (∃ entry, registry.entryAt? id = some entry) ∧
      registry.calculator? id = some session.calculator := by
  obtain ⟨found, -⟩ := Option.filter_eq_some_iff.1 live
  obtain ⟨entry, isEntry, made⟩ := Option.bind_eq_some_iff.1 found
  obtain ⟨calculator, isCalculator, rfl⟩ := Option.map_eq_some_iff.1 made
  exact ⟨⟨entry, isEntry⟩, isCalculator⟩

theorem get_eq (sound : registry.Sound) (now : Int) (id : String) :
    registry.get now id =
      match registry.live? now id with
      | some session => (.ok session.calculator, (registry.purge now).touch now id)
      | none => (.error .notFound, registry.purge now) := by
  have held : (registry.purge now).holds id = (registry.live? now id).isSome := by
    rw [← entryAt?_purge_isSome sound, entryAt?, List.isSome_find?]
    rfl
  unfold get
  simp only [held]
  cases live : registry.live? now id with
  | none => rfl
  | some session =>
    rw [← live?_purge sound] at live
    simp [(exists_of_live? live).2]

/-- A session that is fetched is accessed thereby, and no other one is. -/
theorem live?_get (sound : registry.Sound) (now : Int) (id other : String) :
    (registry.get now id).2.live? now other =
      if other = id then
        ((registry.live? now id).map fun session => { session with lastAccess := now }).filter
          (·.isWithin registry.lifetime now)
      else registry.live? now other := by
  rw [get_eq sound]
  cases live : registry.live? now id with
  | none =>
    rw [live?_purge sound]
    split
    · rename_i same
      rw [same, live]
      rfl
    · rfl
  | some session =>
    rw [live?_touch, live?_purge sound]
    split
    · rename_i same
      rw [← live?_purge sound] at live
      obtain ⟨⟨entry, isEntry⟩, isCalculator⟩ := exists_of_live? live
      rw [same, isEntry, isCalculator]
      rfl
    · rfl

/-! ## Sessions that are created -/

theorem live?_create_of_error (sound : registry.Sound) {now : Int} {settings : Settings}
    {error : RegistryError} (refused : (registry.create now settings).1 = .error error)
    (id : String) : (registry.create now settings).2.live? now id = registry.live? now id := by
  rcases registry.create_cases now settings with ⟨-, isRefused⟩ | ⟨-, isCreated⟩
  · rw [isRefused, ← live?_purge sound]
    rfl
  · rw [isCreated] at refused
    cases refused

/-- A session that is created is live from then on, and no other one is touched. -/
theorem live?_create_of_ok (sound : registry.Sound) {now : Int} {settings : Settings}
    {made : String} (created : (registry.create now settings).1 = .ok made) (id : String) :
    (registry.create now settings).2.live? now id =
      if id = made then
        (some ⟨now, { settings := settings }⟩ : Option LiveSession).filter
          (·.isWithin registry.lifetime now)
      else registry.live? now id := by
  rcases registry.create_cases now settings with ⟨-, isRefused⟩ | ⟨-, isCreated⟩
  · rw [isRefused] at created
    cases created
  · rw [isCreated] at created ⊢
    obtain rfl := Except.ok.inj created
    have fresh : (registry.purge now).issued < registry.issued + 1 := Nat.lt_succ_self _
    have noEntry := entryAt?_eq_none_of_fresh (sound.purge now) fresh
    have noCalculator := calculator?_eq_none_of_fresh (sound.purge now) fresh
    have sameLifetime : (registry.purge now).lifetime = registry.lifetime := rfl
    rw [← live?_purge sound]
    unfold live? entryAt? calculator? at *
    simp only [List.find?_append, List.lookup_append, sameLifetime]
    by_cases same : id = sessionId (registry.issued + 1)
    · subst same
      simp [noEntry, noCalculator]
    · simp [same, Ne.symm same, List.lookup_cons, beq_false_of_ne same]

end Registry

end Reckoner
