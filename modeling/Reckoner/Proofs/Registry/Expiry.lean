import Reckoner.Proofs.Registry.History
import Mathlib.Data.Set.Card

/-!
# Expiry on time

A registry drops expired sessions only when a session is created or fetched, and yet its answers are
those that the history of its sessions gives. The invariant of a run is that the live sessions are
those that are there by the history.
-/

set_option autoImplicit false

namespace Reckoner.Registry

namespace Course

/-- A course whose registry agrees with its history and has room. -/
structure Agrees (lifetime capacity : Int) (course : Course) : Prop where
  sound : course.registry.Sound
  sameLifetime : course.registry.lifetime = lifetime
  sameCapacity : course.registry.capacity = capacity
  live : ∀ id, course.registry.live? course.now id =
    told? lifetime course.now course.history id
  created : course.history.filterMap Event.createdId? = course.registry.keys.reverse
  room : (course.registry.size : Int) ≤ max 0 capacity

variable {lifetime capacity : Int} {course : Course}

theorem agrees_start (lifetime capacity now : Int) :
    (start lifetime capacity now).Agrees lifetime capacity where
  sound := sound_empty lifetime capacity 0
  sameLifetime := rfl
  sameCapacity := rfl
  live := fun _ => rfl
  created := rfl
  room := Int.le_max_left 0 capacity

namespace Agrees

theorem narrow (agrees : course.Agrees lifetime capacity) {after : Registry} {events : List Event}
    (narrows : course.registry.Narrows after)
    (live : ∀ id, after.live? course.now id =
      told? lifetime course.now (events ++ course.history) id)
    (noneCreated : events.filterMap Event.createdId? = []) :
    Agrees lifetime capacity
      { course with registry := after, history := events ++ course.history } where
  sound := narrows.sound
  sameLifetime := narrows.lifetime.trans agrees.sameLifetime
  sameCapacity := narrows.capacity.trans agrees.sameCapacity
  live := live
  created := by
    rw [List.filterMap_append, noneCreated, agrees.created, narrows.keys]
    rfl
  room := by
    have before := agrees.room
    have size := narrows.size
    simp only
    omega

theorem create (agrees : course.Agrees lifetime capacity) (settings : Settings) :
    (course.step (.create settings)).Agrees lifetime capacity := by
  have shape : course.step (.create settings) =
      { course with
        registry := (course.registry.create course.now settings).2
        history := Event.ofOutcome (.created settings course.now)
          (course.registry.create course.now settings).1 ++ course.history } := rfl
  have isSound := agrees.sound.create course.now settings
  have purged := agrees.sound.narrows_release (course.registry.isExpired course.now)
  have room := agrees.room
  have size := purged.size
  rw [shape]
  rcases course.registry.create_cases course.now settings with ⟨-, refused⟩ | ⟨free, created⟩
  · have live := live?_create_of_error agrees.sound (congrArg Prod.fst refused)
    rw [refused] at isSound live ⊢
    refine ⟨isSound, agrees.sameLifetime, agrees.sameCapacity, ?_, ?_, ?_⟩
    · intro id
      exact (live id).trans (agrees.live id)
    · exact agrees.created.trans (congrArg List.reverse purged.keys.symm)
    · exact Int.le_trans (Int.ofNat_le.2 size) room
  · have live := live?_create_of_ok agrees.sound (congrArg Prod.fst created)
    rw [created] at isSound live ⊢
    refine ⟨isSound, agrees.sameLifetime, agrees.sameCapacity, ?_, ?_, ?_⟩
    · intro id
      have isLive := live id
      rw [agrees.sameLifetime, agrees.live] at isLive
      exact isLive.trans (told?_created lifetime course.now course.history id _ settings).symm
    · have keys : (course.registry.purge course.now).keys = course.registry.keys := purged.keys
      have noted := agrees.created
      rw [← keys] at noted
      simpa [Event.ofOutcome, Event.createdId?, Registry.keys] using noted
    · have bound : ((course.registry.purge course.now).size : Int) < capacity :=
        agrees.sameCapacity ▸ free
      simp only [Registry.size, List.length_append, List.length_singleton] at bound ⊢
      omega

theorem get (agrees : course.Agrees lifetime capacity) (id : String) :
    (course.step (.get id)).Agrees lifetime capacity := by
  have shape : course.step (.get id) =
      { course with
        registry := (course.registry.get course.now id).2
        history := Event.ofOutcome (fun _ => .fetched course.now id)
          (course.registry.get course.now id).1 ++ course.history } := rfl
  have live := live?_get agrees.sound course.now id
  have outcome := congrArg Prod.fst (get_eq agrees.sound course.now id)
  rw [agrees.live] at outcome
  rw [shape]
  refine agrees.narrow (agrees.sound.narrows_get course.now id) ?_ ?_
  · intro other
    rw [live, agrees.sameLifetime, agrees.live, agrees.live, outcome]
    cases told : told? lifetime course.now course.history id with
    | none =>
      split
      · rename_i same
        rw [same]
        exact told.symm
      · rfl
    | some session =>
      refine Eq.trans ?_ (told?_fetched lifetime course.now course.history other id).symm
      split
      · rename_i same
        rw [same, told]
      · rfl
  · rw [outcome]
    cases told? lifetime course.now course.history id with
    | none => rfl
    | some session => rfl

theorem delete (agrees : course.Agrees lifetime capacity) (id : String) :
    (course.step (.delete id)).Agrees lifetime capacity := by
  have shape : course.step (.delete id) =
      { course with
        registry := (course.registry.delete id).2
        history := Event.ofOutcome (fun _ => .deleted id) (course.registry.delete id).1 ++
          course.history } := rfl
  have live := live?_delete agrees.sound course.now id
  rw [shape]
  cases held : course.registry.holds id with
  | true =>
    have outcome : (course.registry.delete id).1 = .ok () := by simp [Registry.delete, held]
    rw [outcome]
    refine agrees.narrow (agrees.sound.narrows_delete id) ?_ rfl
    intro other
    rw [live, agrees.live]
    exact (told?_deleted lifetime course.now course.history other id).symm
  | false =>
    have outcome : (course.registry.delete id).1 = .error .notFound := by
      simp [Registry.delete, held]
    have noEntry : course.registry.entryAt? id = none := by
      simpa [entryAt?, Registry.holds] using held
    rw [outcome]
    refine agrees.narrow (agrees.sound.narrows_delete id) ?_ rfl
    intro other
    rw [live, agrees.live]
    split
    · rename_i same
      rw [same]
      exact (live?_of_no_entry noEntry course.now).symm.trans (agrees.live id)
    · rfl

theorem step (agrees : course.Agrees lifetime capacity) (next : Step) :
    (course.step next).Agrees lifetime capacity := by
  cases next with
  | create settings => exact agrees.create settings
  | get id => exact agrees.get id
  | delete id => exact agrees.delete id
  | clear =>
    refine @narrow _ _ _ agrees _ [.cleared] (agrees.sound.narrows_release _) ?_ rfl
    exact fun id => live?_clear agrees.sound course.now id
  | store id calculator =>
    refine @narrow _ _ _ agrees _ [.changed id calculator]
      (agrees.sound.narrows_store id calculator) ?_ rfl
    intro other
    rw [live?_store, agrees.live]
    exact (told?_changed lifetime course.now course.history other id calculator).symm
  | advance span =>
    refine { agrees with live := ?_ }
    intro id
    have later := @live?_later course.registry course.now span id
    rw [agrees.sameLifetime, agrees.live] at later
    exact later.trans (told?_later lifetime course.now course.history id span).symm

theorem run (agrees : course.Agrees lifetime capacity) (steps : List Step) :
    (course.run steps).Agrees lifetime capacity := by
  induction steps generalizing course with
  | nil => exact agrees
  | cons next steps inner => exact inner (agrees.step next)

theorem isAlive_iff (agrees : course.Agrees lifetime capacity) (id : String)
    (calculator : Calculator) :
    (∃ life, IsAlive lifetime course.now course.history id life ∧ life.calculator = calculator) ↔
      ∃ session, course.registry.live? course.now id = some session ∧
        session.calculator = calculator := by
  simp only [agrees.live, told?_eq_some_iff]
  constructor
  · rintro ⟨life, alive, same⟩
    exact ⟨life.toLiveSession, ⟨life, alive, rfl⟩, same⟩
  · rintro ⟨-, ⟨life, alive, rfl⟩, same⟩
    exact ⟨life, alive, same⟩

theorem get_eq_ok_iff (agrees : course.Agrees lifetime capacity) (id : String)
    (calculator : Calculator) :
    (course.registry.get course.now id).1 = .ok calculator ↔
      ∃ life, IsAlive lifetime course.now course.history id life ∧
        life.calculator = calculator := by
  rw [agrees.isAlive_iff, get_eq agrees.sound]
  cases course.registry.live? course.now id with
  | none => simp
  | some session => simp

theorem get_eq_error_iff (agrees : course.Agrees lifetime capacity) (id : String) :
    (course.registry.get course.now id).1 = .error .notFound ↔
      ¬ ∃ life, IsAlive lifetime course.now course.history id life := by
  have alive : (∃ life, IsAlive lifetime course.now course.history id life) ↔
      ∃ calculator, (course.registry.get course.now id).1 = .ok calculator := by
    simp only [agrees.get_eq_ok_iff]
    constructor
    · rintro ⟨life, isAlive⟩
      exact ⟨life.calculator, life, isAlive, rfl⟩
    · rintro ⟨-, life, isAlive, -⟩
      exact ⟨life, isAlive⟩
  rw [alive, get_eq agrees.sound]
  cases course.registry.live? course.now id with
  | none => simp
  | some session => simp

/-- The sessions that are left by a purge are those that are there by the history. -/
theorem ncard_alive (agrees : course.Agrees lifetime capacity) :
    {id | ∃ life, IsAlive lifetime course.now course.history id life}.ncard =
      (course.registry.purge course.now).size := by
  let left := (course.registry.purge course.now).entries.map (·.id)
  have distinct : left.Nodup := (agrees.sound.purge course.now).distinct
  have members : {id | ∃ life, IsAlive lifetime course.now course.history id life} =
      (left.toFinset : Set String) := by
    ext id
    have kept := entryAt?_purge_isSome agrees.sound course.now id
    rw [agrees.live, Bool.eq_iff_iff] at kept
    simp only [Option.isSome_iff_exists, told?_eq_some_iff] at kept
    have held : id ∈ left ↔
        ∃ entry, (course.registry.purge course.now).entryAt? id = some entry := by
      rw [← Option.isSome_iff_exists, entryAt?, List.find?_isSome]
      simp [left]
    rw [Set.mem_ofPred_eq, List.coe_toFinset, Set.mem_ofPred_eq, held, kept]
    constructor
    · rintro ⟨life, alive⟩
      exact ⟨life.toLiveSession, life, alive, rfl⟩
    · rintro ⟨-, life, alive, -⟩
      exact ⟨life, alive⟩
  rw [members, Set.ncard_coe_finset, List.toFinset_card_of_nodup distinct, List.length_map]
  rfl

theorem create_eq (agrees : course.Agrees lifetime capacity) (settings : Settings) :
    (course.registry.create course.now settings).1 =
      if capacity ≤ {id | ∃ life, IsAlive lifetime course.now course.history id life}.ncard then
        .error .full
      else .ok (sessionId (course.registry.issued + 1)) := by
  rw [agrees.ncard_alive]
  rcases course.registry.create_cases course.now settings with ⟨full, refused⟩ | ⟨free, created⟩
  · rw [agrees.sameCapacity] at full
    rw [refused, if_pos full]
  · rw [agrees.sameCapacity] at free
    rw [created, if_neg (Int.not_le.2 free)]

end Agrees

/-- Whatever was done with a registry, at any moment a session is fetched exactly if it was created,
has neither been deleted nor cleared since and was never left alone for longer than the lifetime,
and then with the calculator it was created with, as it was changed since. Another session is
refused exactly if as many as the capacity are of that kind, and there are never more entries than
that. No identifier is given out twice. -/
theorem sessions_expire_on_time (lifetime capacity started : Int) (steps : List Step) :
    let course := (start lifetime capacity started).run steps
    let alive := IsAlive lifetime course.now course.history
    (∀ id calculator, (course.registry.get course.now id).1 = .ok calculator ↔
        ∃ life, alive id life ∧ life.calculator = calculator) ∧
      (∀ id, (course.registry.get course.now id).1 = .error .notFound ↔ ¬ ∃ life, alive id life) ∧
      (∀ settings, (course.registry.create course.now settings).1 =
        if capacity ≤ {id | ∃ life, alive id life}.ncard then .error .full
        else .ok (sessionId (course.registry.issued + 1))) ∧
      (course.registry.size : Int) ≤ max 0 capacity ∧
      (course.history.filterMap Event.createdId?).Nodup := by
  intro course alive
  have agrees : course.Agrees lifetime capacity :=
    (agrees_start lifetime capacity started).run steps
  refine ⟨agrees.get_eq_ok_iff, agrees.get_eq_error_iff, agrees.create_eq, agrees.room, ?_⟩
  rw [agrees.created]
  exact List.nodup_reverse.2 agrees.sound.unique

/-- An access just in time keeps a session, and the next gap is a moment too long. -/
example :
    let course := (start 10 1 0).run
      [.create {}, .advance 10, .get (sessionId 1), .advance 10, .get (sessionId 1), .advance 11]
    course.history.length = 3 ∧ course.registry.size = 1 ∧
      (course.registry.get course.now (sessionId 1)).1.isOk = false := by
  decide +kernel

end Course

end Reckoner.Registry
