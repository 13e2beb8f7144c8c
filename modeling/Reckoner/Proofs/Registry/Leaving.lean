import Reckoner.Proofs.Registry.Expiry

/-!
# Sessions that leave

A session leaves the registry when it is deleted, when the registry is cleared, or when its lifetime
has passed and any session is created or fetched; the request that purges it may be for another
session, and may be refused. Its calculator loses its variables then, and only then: whatever else
happens to the registry leaves the calculators as they are, those of sessions that left before
included.
-/

set_option autoImplicit false

namespace Reckoner.Registry

variable {registry after : Registry}

/-- Of the calculators there were, exactly those whose session has left have lost their variables,
and otherwise none has changed. -/
def Releases (registry after : Registry) : Prop :=
  ∀ id calculator, registry.calculator? id = some calculator →
    after.calculator? id = some
      (if registry.holds id && !after.holds id then calculator.close else calculator)

theorem holds_eq (registry : Registry) (id : String) :
    registry.holds id = (registry.entryAt? id).isSome := by
  unfold holds entryAt?
  rw [List.isSome_find?]

theorem holds_touch (now : Int) (id other : String) :
    (registry.touch now id).holds other = registry.holds other := by
  rw [holds_eq, holds_eq, entryAt?_touch, Option.isSome_map]

theorem releases_self (registry : Registry) : registry.Releases registry := by
  intro id calculator made
  cases registry.holds id with
  | true => exact made
  | false => exact made

/-- Only the sessions and calculators that there were before play a part. -/
theorem Releases.congr (releases : registry.Releases after) {other : Registry}
    (same : ∀ id ∈ registry.keys, other.holds id = after.holds id ∧
      other.calculator? id = after.calculator? id) : registry.Releases other := by
  intro id calculator made
  have inUse : id ∈ registry.keys := (calculator?_isSome_iff id).1 (made ▸ rfl)
  obtain ⟨sameHolds, sameCalculator⟩ := same id inUse
  rw [sameHolds, sameCalculator]
  exact releases id calculator made

namespace Sound

theorem releases_release (sound : registry.Sound) (leaves : SessionEntry → Bool) :
    registry.Releases (registry.release leaves) := by
  intro id calculator made
  rw [calculator?_release, any_leaving_eq sound, made, holds_eq, holds_eq, entryAt?_release sound]
  cases registry.entryAt? id with
  | none => rfl
  | some entry =>
    cases left : leaves entry with
    | true => simp [Option.filter, left]
    | false => simp [Option.filter, left]

theorem releases_create (sound : registry.Sound) (now : Int) (settings : Settings) :
    registry.Releases (registry.create now settings).2 := by
  have purged : registry.Releases (registry.purge now) := sound.releases_release _
  rcases registry.create_cases now settings with ⟨-, refused⟩ | ⟨-, created⟩
  · rw [refused]
    exact purged
  · rw [created]
    refine purged.congr ?_
    intro id inUse
    have fresh := next_ne_of_mem_keys sound inUse
    constructor
    · simp [holds, fresh]
    · simp [calculator?, List.lookup_append, List.lookup_cons, beq_false_of_ne (Ne.symm fresh)]

theorem releases_get (sound : registry.Sound) (now : Int) (id : String) :
    registry.Releases (registry.get now id).2 := by
  have purged := sound.releases_release (registry.isExpired now)
  have touched : registry.Releases ((registry.purge now).touch now id) :=
    purged.congr fun other _ => ⟨holds_touch now id other, rfl⟩
  unfold Registry.get
  simp only
  split
  · split
    · exact touched
    · exact purged
  · exact purged

theorem releases_delete (sound : registry.Sound) (id : String) :
    registry.Releases (registry.delete id).2 := by
  unfold Registry.delete
  split
  · exact sound.releases_release _
  · exact registry.releases_self

end Sound

namespace Course

variable {course : Course}

/-- A step closes the calculators whose sessions it makes leave, and changes no other one, unless it
is the step of somebody who holds the calculator. -/
theorem calculator?_step (sound : course.registry.Sound) {next : Step} {id : String}
    {calculator : Calculator} (made : course.registry.calculator? id = some calculator)
    (unchanged : ∀ changed, next ≠ .store id changed) :
    (course.step next).registry.calculator? id = some
      (if course.registry.holds id && !(course.step next).registry.holds id then calculator.close
        else calculator) := by
  cases next with
  | create settings => exact sound.releases_create course.now settings id calculator made
  | get other => exact sound.releases_get course.now other id calculator made
  | delete other => exact sound.releases_delete other id calculator made
  | clear => exact sound.releases_release _ id calculator made
  | advance span => exact releases_self course.registry id calculator made
  | store other changed =>
    have different : id ≠ other := by
      rintro rfl
      exact unchanged changed rfl
    have kept : (course.registry.store other changed).calculator? id = some calculator := by
      rw [calculator?_store, made, Option.map_some, if_neg different]
    exact releases_self _ id calculator kept

/-- After any run, a session that is in the registry has a calculator. Whatever is done next, also
if it is refused, a calculator whose session leaves the registry by it has no variables right after
it and its settings as before. A calculator whose session stays is left as it is, and so is one
whose session had left before. Only whoever holds a calculator may change it at that step. -/
theorem leaving_clears_variables (lifetime capacity started : Int) (steps : List Step)
    (next : Step) (id : String) (unchanged : ∀ changed, next ≠ .store id changed) :
    let course := (start lifetime capacity started).run steps
    let after := (course.step next).registry
    (course.registry.holds id = true →
        ∃ calculator, course.registry.calculator? id = some calculator) ∧
      ∀ calculator, course.registry.calculator? id = some calculator →
        (course.registry.holds id = true → after.holds id = false →
            ∃ left, after.calculator? id = some left ∧ left.table = .empty ∧
              left.settings = calculator.settings) ∧
          (course.registry.holds id = false ∨ after.holds id = true →
            after.calculator? id = some calculator) := by
  intro course after
  have sound : course.registry.Sound := ((agrees_start lifetime capacity started).run steps).sound
  constructor
  · intro there
    rw [holds_eq, Option.isSome_iff_exists] at there
    obtain ⟨entry, found⟩ := there
    obtain ⟨calculator, made, -⟩ := live?_of_entry sound found
    exact ⟨calculator, made⟩
  · intro calculator made
    have stepped : after.calculator? id = some
        (if course.registry.holds id && !after.holds id then calculator.close else calculator) :=
      calculator?_step sound made unchanged
    constructor
    · intro there gone
      exact ⟨calculator.close, by simpa [there, gone] using stepped, rfl, rfl⟩
    · rintro (absent | stays)
      · simpa [absent] using stepped
      · simpa [stays] using stepped

/-- A session with a variable expires, and leaves when an unknown session is asked for in vain. -/
theorem leaving_clears_variables_of_expired :
    let calculator : Calculator := { table := ⟨[("x", Binary64.one)]⟩ }
    let steps := [.create {}, .store (sessionId 1) calculator, .advance 11]
    let next : Step := .get "nobody"
    (∀ changed, next ≠ .store (sessionId 1) changed) ∧
      let course := (start 10 1 0).run steps
      let after := (course.step next).registry
      course.registry.calculator? (sessionId 1) = some calculator ∧
        course.registry.holds (sessionId 1) = true ∧ after.holds (sessionId 1) = false ∧
        (course.registry.get course.now "nobody").1.isOk = false ∧
        ∃ left, after.calculator? (sessionId 1) = some left ∧ left.table = .empty ∧
          left.settings = calculator.settings := by
  intro calculator steps next
  refine ⟨nofun, ?_⟩
  intro course after
  have made : course.registry.calculator? (sessionId 1) = some calculator := by rfl
  have there : course.registry.holds (sessionId 1) = true := by decide +kernel
  have gone : after.holds (sessionId 1) = false := by decide +kernel
  have emptied := ((leaving_clears_variables 10 1 0 steps next (sessionId 1) nofun).2 calculator
    made).1 there gone
  exact ⟨made, there, gone, by decide +kernel, emptied⟩

end Course

end Reckoner.Registry
