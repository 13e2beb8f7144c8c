import Reckoner.Proofs.Registry.Expiry
import Reckoner.Proofs.Registry.Leaving

/-!
# Sessions that linger

A session whose lifetime has passed is not fetched any more, but it stays in the registry until a
session is created or fetched, whichever that is and even in vain. Up to then it can be deleted, and
from then on it cannot: the outcome of a deletion tells whether anybody else has come since.
-/

set_option autoImplicit false

namespace Reckoner.Registry

variable {registry : Registry}

/-! ## What is left in a registry -/

theorem holds_purge (sound : registry.Sound) (now : Int) (id : String) :
    (registry.purge now).holds id = (registry.live? now id).isSome := by
  rw [holds_eq, entryAt?_purge_isSome sound]

theorem holds_get (sound : registry.Sound) (now : Int) (id other : String) :
    (registry.get now id).2.holds other = (registry.live? now other).isSome := by
  rw [get_eq sound, ← holds_purge sound]
  cases registry.live? now id with
  | none => rfl
  | some session => exact holds_touch now id other

theorem holds_create (sound : registry.Sound) (now : Int) (settings : Settings) (id : String) :
    (registry.create now settings).2.holds id = true ↔
      (registry.live? now id).isSome = true ∨ (registry.create now settings).1 = .ok id := by
  rw [← holds_purge sound]
  rcases registry.create_cases now settings with ⟨-, refused⟩ | ⟨-, created⟩
  · rw [refused]
    simp [holds]
  · rw [created]
    simp [holds]

theorem holds_delete (sound : registry.Sound) (id other : String) :
    (registry.delete id).2.holds other = true ↔ other ≠ id ∧ registry.holds other = true := by
  unfold delete
  split
  · rw [holds_eq, holds_eq, entryAt?_release sound]
    cases found : registry.entryAt? other with
    | none => simp
    | some entry => simp [id_of_entryAt? found, Option.filter]
  · rename_i absent
    constructor
    · rintro there
      refine ⟨?_, there⟩
      rintro rfl
      exact absent there
    · exact And.right

theorem delete_eq_ok_iff (id : String) :
    (registry.delete id).1 = .ok () ↔ registry.holds id = true := by
  unfold delete
  split
  · simp_all
  · simp_all

/-! ## Requests that find a session expired -/

/-- The steps that make the registry drop expired sessions, also where they are refused. -/
def Step.purges : Step → Bool
  | create _ | get _ => true
  | _ => false

theorem mem_created_of_life? {id : String} {history : List Event} {life : Life}
    (known : life? id history = some life) : id ∈ history.filterMap Event.createdId? := by
  induction history generalizing life with
  | nil => cases known
  | cons event history inner =>
    cases event with
    | created settings moment other =>
      by_cases same : id = other
      · simp [Event.createdId?, same]
      · rw [life?, if_neg same] at known
        exact List.mem_cons_of_mem _ (inner known)
    | fetched moment other =>
      rw [life?] at known
      split at known
      · obtain ⟨before, isBefore, -⟩ := Option.map_eq_some_iff.1 known
        exact inner isBefore
      · exact inner known
    | deleted other =>
      rw [life?] at known
      split at known
      · cases known
      · exact inner known
    | cleared => cases known
    | changed other calculator =>
      rw [life?] at known
      split at known
      · obtain ⟨before, isBefore, -⟩ := Option.map_eq_some_iff.1 known
        exact inner isBefore
      · exact inner known

namespace Course

variable {lifetime capacity : Int} {course : Course} {id : String}

/-- The session with an identifier was created, has neither been deleted nor cleared since, and was
last accessed longer ago than its lifetime. -/
def Overdue (course : Course) (id : String) : Prop :=
  ∃ life, life? id course.history = some life ∧
    course.registry.lifetime < course.now - life.lastAccess

/-- At one of the steps the registry is asked to create or to fetch a session, and the session with
an identifier is overdue by then. -/
def FindsOverdue (id : String) (course : Course) : List Step → Prop
  | [] => False
  | next :: steps =>
    (next.purges = true ∧ course.Overdue id) ∨ (course.step next).FindsOverdue id steps

/-- A course in which the registry holds the session with an identifier exactly if that is known and
has not been found to be overdue. -/
structure Lingers (lifetime capacity : Int) (id : String) (course : Course) (found : Prop) :
    Prop where
  agrees : course.Agrees lifetime capacity
  gaps : ∀ life, life? id course.history = some life →
    (life.lastAccess :: life.earlier).IsChain fun later before => later - before ≤ lifetime
  holds : course.registry.holds id = true ↔ (∃ life, life? id course.history = some life) ∧ ¬ found
  inUse : found → id ∈ course.registry.keys
  overdue : found → ∀ life, life? id course.history = some life →
    lifetime < course.now - life.lastAccess

theorem lingers_start (lifetime capacity now : Int) (id : String) :
    Lingers lifetime capacity id (start lifetime capacity now) False where
  agrees := agrees_start lifetime capacity now
  gaps := nofun
  holds := by simp [start, Registry.holds, life?]
  inUse := False.elim
  overdue := False.elim

namespace Lingers

variable {found : Prop}

theorem live?_isSome_iff (lingers : Lingers lifetime capacity id course found) :
    (course.registry.live? course.now id).isSome = true ↔
      (∃ life, life? id course.history = some life) ∧ ¬ course.Overdue id := by
  rw [lingers.agrees.live, Option.isSome_iff_exists]
  simp only [told?_eq_some_iff, Overdue, lingers.agrees.sameLifetime]
  constructor
  · rintro ⟨-, life, ⟨known, unexpired⟩, rfl⟩
    refine ⟨⟨life, known⟩, ?_⟩
    rintro ⟨other, isOther, late⟩
    obtain rfl := Option.some.inj (known.symm.trans isOther)
    have gap := (List.isChain_cons_cons.1 unexpired).1
    omega
  · rintro ⟨⟨life, known⟩, inTime⟩
    have gap : course.now - life.lastAccess ≤ lifetime :=
      Int.not_lt.1 fun late => inTime ⟨life, known, late⟩
    exact ⟨life.toLiveSession, life,
      ⟨known, List.isChain_cons_cons.2 ⟨gap, lingers.gaps life known⟩⟩, rfl⟩

theorem overdue_of_found (lingers : Lingers lifetime capacity id course found) (isFound : found)
    (known : ∃ life, life? id course.history = some life) : course.Overdue id := by
  obtain ⟨life, isLife⟩ := known
  refine ⟨life, isLife, ?_⟩
  rw [lingers.agrees.sameLifetime]
  exact lingers.overdue isFound life isLife

theorem mem_keys (lingers : Lingers lifetime capacity id course found) {life : Life}
    (known : life? id course.history = some life) : id ∈ course.registry.keys := by
  have created := mem_created_of_life? known
  rw [lingers.agrees.created] at created
  exact List.mem_reverse.1 created

/-- A request that drops the expired sessions and is no access to the session. -/
theorem purge (lingers : Lingers lifetime capacity id course found) {after : Course}
    (agrees : after.Agrees lifetime capacity) (now : after.now = course.now)
    (known : life? id after.history = life? id course.history)
    (keys : course.registry.keys ⊆ after.registry.keys)
    (holds : after.registry.holds id = (course.registry.live? course.now id).isSome) :
    Lingers lifetime capacity id after (found ∨ course.Overdue id) where
  agrees := agrees
  gaps := known ▸ lingers.gaps
  holds := by
    rw [holds, lingers.live?_isSome_iff, known]
    constructor
    · rintro ⟨isKnown, inTime⟩
      refine ⟨isKnown, ?_⟩
      rintro (isFound | late)
      · exact inTime (lingers.overdue_of_found isFound isKnown)
      · exact inTime late
    · rintro ⟨isKnown, unfound⟩
      exact ⟨isKnown, fun late => unfound (.inr late)⟩
  inUse := by
    rintro (isFound | ⟨life, isLife, -⟩)
    · exact keys (lingers.inUse isFound)
    · exact keys (lingers.mem_keys isLife)
  overdue := by
    intro isFound life isLife
    rw [known] at isLife
    rw [now]
    rcases isFound with isFound | ⟨other, isOther, late⟩
    · exact lingers.overdue isFound life isLife
    · obtain rfl := Option.some.inj (isLife.symm.trans isOther)
      rwa [lingers.agrees.sameLifetime] at late

/-- A step that drops nothing on its own and leaves the accesses to the session as they are. -/
theorem keep (lingers : Lingers lifetime capacity id course found) {after : Course}
    (agrees : after.Agrees lifetime capacity) (now : course.now ≤ after.now)
    (change : Life → Calculator)
    (known : life? id after.history = (life? id course.history).map fun life =>
      ⟨⟨life.lastAccess, change life⟩, life.earlier⟩)
    (keys : after.registry.keys = course.registry.keys)
    (holds : after.registry.holds id = course.registry.holds id) :
    Lingers lifetime capacity id after found where
  agrees := agrees
  gaps := by
    intro life isLife
    rw [known] at isLife
    obtain ⟨before, isBefore, rfl⟩ := Option.map_eq_some_iff.1 isLife
    exact lingers.gaps before isBefore
  holds := by
    rw [holds, lingers.holds, known]
    simp
  inUse := fun isFound => keys ▸ lingers.inUse isFound
  overdue := by
    intro isFound life isLife
    rw [known] at isLife
    obtain ⟨before, isBefore, rfl⟩ := Option.map_eq_some_iff.1 isLife
    have late := lingers.overdue isFound before isBefore
    simp only
    omega

/-- A session in the registry that was accessed in time up to now. -/
theorem of_access {life : Life} (agrees : course.Agrees lifetime capacity)
    (known : life? id course.history = some life)
    (gaps : (life.lastAccess :: life.earlier).IsChain fun later before => later - before ≤ lifetime)
    (holds : course.registry.holds id = true) (unfound : ¬ found) :
    Lingers lifetime capacity id course found where
  agrees := agrees
  gaps := by
    intro other isOther
    obtain rfl := Option.some.inj (known.symm.trans isOther)
    exact gaps
  holds := by simp [holds, known, unfound]
  inUse := fun isFound => absurd isFound unfound
  overdue := fun isFound => absurd isFound unfound

theorem create (lingers : Lingers lifetime capacity id course found) (settings : Settings) :
    Lingers lifetime capacity id (course.step (.create settings)) (found ∨ course.Overdue id) := by
  have agrees := lingers.agrees.create settings
  have keys := course.registry.keys_create course.now settings
  have holds := holds_create lingers.agrees.sound course.now settings id
  have shape : (course.step (.create settings)).history =
      Event.ofOutcome (.created settings course.now)
        (course.registry.create course.now settings).1 ++ course.history := rfl
  cases outcome : (course.registry.create course.now settings).1 with
  | error error =>
    rw [outcome] at keys holds shape
    have sameHolds : (course.registry.create course.now settings).2.holds id =
        (course.registry.live? course.now id).isSome := Bool.eq_iff_iff.2 (by simpa using holds)
    exact lingers.purge agrees rfl (congrArg (life? id) shape) (keys ▸ List.Subset.refl _) sameHolds
  | ok made =>
    rw [outcome] at keys holds shape
    have known : life? id (course.step (.create settings)).history =
        if id = made then some ⟨⟨course.now, { settings := settings }⟩, []⟩
        else life? id course.history := congrArg (life? id) shape
    by_cases same : id = made
    · -- the identifier is new, so nothing can have been found out about it
      subst same
      have unused : id ∉ course.registry.keys := by
        intro used
        have twice := agrees.sound.unique
        have given : (course.step (.create settings)).registry.keys =
            course.registry.keys ++ [id] := keys
        rw [given, List.nodup_append] at twice
        exact twice.2.2 id used id (List.mem_singleton.2 rfl) rfl
      refine of_access agrees (known.trans (if_pos rfl)) (List.isChain_singleton _)
        (holds.2 (.inr rfl)) ?_
      rintro (isFound | ⟨life, isLife, -⟩)
      · exact unused (lingers.inUse isFound)
      · exact unused (lingers.mem_keys isLife)
    · have sameHolds : (course.registry.create course.now settings).2.holds id =
          (course.registry.live? course.now id).isSome :=
        Bool.eq_iff_iff.2 (by simpa [Ne.symm same] using holds)
      exact lingers.purge agrees rfl (known.trans (if_neg same))
        (fun other used => keys ▸ List.mem_append_left _ used) sameHolds

theorem get (lingers : Lingers lifetime capacity id course found) (other : String) :
    Lingers lifetime capacity id (course.step (.get other)) (found ∨ course.Overdue id) := by
  have agrees := lingers.agrees.get other
  have keys := (lingers.agrees.sound.narrows_get course.now other).keys
  have holds := holds_get lingers.agrees.sound course.now other id
  have fetched := congrArg Prod.fst (get_eq lingers.agrees.sound course.now other)
  have shape : (course.step (.get other)).history =
      Event.ofOutcome (fun _ => .fetched course.now other)
        (course.registry.get course.now other).1 ++ course.history := rfl
  rw [fetched] at shape
  cases live : course.registry.live? course.now other with
  | none =>
    rw [live] at shape
    exact lingers.purge agrees rfl (congrArg (life? id) shape) (keys ▸ List.Subset.refl _) holds
  | some session =>
    rw [live] at shape
    have known : life? id (course.step (.get other)).history =
        if id = other then (life? id course.history).map fun life =>
          ⟨⟨course.now, life.calculator⟩, life.lastAccess :: life.earlier⟩
        else life? id course.history := congrArg (life? id) shape
    by_cases same : id = other
    · subst same
      obtain ⟨⟨life, isLife⟩, inTime⟩ := lingers.live?_isSome_iff.1 (live ▸ rfl)
      have gap : course.now - life.lastAccess ≤ lifetime := by
        refine Int.not_lt.1 fun late => inTime ⟨life, isLife, ?_⟩
        rwa [lingers.agrees.sameLifetime]
      rw [if_pos rfl, isLife] at known
      refine of_access agrees known (List.isChain_cons_cons.2 ⟨gap, lingers.gaps life isLife⟩)
        (holds.trans (live ▸ rfl)) ?_
      rintro (isFound | late)
      · exact inTime (lingers.overdue_of_found isFound ⟨life, isLife⟩)
      · exact inTime late
    · exact lingers.purge agrees rfl (known.trans (if_neg same)) (keys ▸ List.Subset.refl _) holds

theorem delete (lingers : Lingers lifetime capacity id course found) (other : String) :
    Lingers lifetime capacity id (course.step (.delete other)) found := by
  have agrees := lingers.agrees.delete other
  have keys := (lingers.agrees.sound.narrows_delete other).keys
  have holds := holds_delete lingers.agrees.sound other id
  have shape : (course.step (.delete other)).history =
      Event.ofOutcome (fun _ => .deleted other) (course.registry.delete other).1 ++
        course.history := rfl
  by_cases there : course.registry.holds other = true
  · rw [(delete_eq_ok_iff other).2 there] at shape
    have known : life? id (course.step (.delete other)).history =
        if id = other then none else life? id course.history := congrArg (life? id) shape
    by_cases same : id = other
    · rw [if_pos same] at known
      refine ⟨agrees, ?_, ?_, ?_, ?_⟩
      · simp [known]
      · rw [known]
        exact ⟨fun left => absurd same (holds.1 left).1, by simp⟩
      · exact fun isFound => keys ▸ lingers.inUse isFound
      · simp [known]
    · have sameHolds : (course.registry.delete other).2.holds id = course.registry.holds id :=
        Bool.eq_iff_iff.2 (holds.trans (and_iff_right same))
      rw [if_neg same] at known
      exact lingers.keep agrees (Int.le_refl _) (·.calculator) (by simp [known]) keys sameHolds
  · have nothing : course.registry.delete other = (.error .notFound, course.registry) :=
      if_neg there
    have same : course.step (.delete other) = course := by
      simp [Course.step, nothing, Event.ofOutcome]
    rw [same]
    exact lingers

theorem step (lingers : Lingers lifetime capacity id course found) (next : Step) :
    Lingers lifetime capacity id (course.step next)
      (found ∨ (next.purges = true ∧ course.Overdue id)) := by
  have agrees := lingers.agrees.step next
  cases next with
  | create settings => simpa [Step.purges] using lingers.create settings
  | get other => simpa [Step.purges] using lingers.get other
  | delete other => simpa [Step.purges] using lingers.delete other
  | clear =>
    have known : life? id (course.step .clear).history = none := rfl
    have absent : (course.step .clear).registry.holds id = false := by
      simp [Course.step, Registry.clear, Registry.release, Registry.holds]
    have keys : (course.step .clear).registry.keys = course.registry.keys := keys_release _
    simp only [Step.purges, Bool.false_eq_true, false_and, or_false]
    refine ⟨agrees, by simp [known], by simp [known, absent], ?_, by simp [known]⟩
    exact fun isFound => keys ▸ lingers.inUse isFound
  | store other calculator =>
    simp only [Step.purges, Bool.false_eq_true, false_and, or_false]
    refine lingers.keep agrees (Int.le_refl _)
      (fun life => if id = other then calculator else life.calculator) ?_ (keys_store _ _) rfl
    by_cases same : id = other
    · simp [Course.step, life?, same]
    · simp [Course.step, life?, same]
  | advance span =>
    simp only [Step.purges, Bool.false_eq_true, false_and, or_false]
    exact lingers.keep agrees (Int.le_add_of_nonneg_right (Int.natCast_nonneg span)) (·.calculator)
      (by simp [Course.step]) rfl rfl

theorem run (lingers : Lingers lifetime capacity id course found) (steps : List Step) :
    Lingers lifetime capacity id (course.run steps) (found ∨ course.FindsOverdue id steps) := by
  induction steps generalizing course found with
  | nil =>
    rw [FindsOverdue, or_false]
    exact lingers
  | cons next steps inner =>
    have later := inner (lingers.step next)
    rw [or_assoc] at later
    exact later

end Lingers

/-- After any run, a session that is overdue is not fetched. A session is deleted exactly if it was
created and has neither been deleted nor cleared since, and at none of the steps the registry was
asked, successfully or not, to create or to fetch some session when this one was overdue already. -/
theorem delete_until_found_overdue (lifetime capacity started : Int) (steps : List Step)
    (id : String) :
    let first := start lifetime capacity started
    let course := first.run steps
    (course.Overdue id → (course.registry.get course.now id).1 = .error .notFound) ∧
      ((course.registry.delete id).1 = .ok () ↔
        (∃ life, life? id course.history = some life) ∧ ¬ first.FindsOverdue id steps) ∧
      ((course.registry.delete id).1 = .error .notFound ↔
        (¬ ∃ life, life? id course.history = some life) ∨ first.FindsOverdue id steps) := by
  intro first course
  have lingers : Lingers lifetime capacity id course (False ∨ first.FindsOverdue id steps) :=
    (lingers_start lifetime capacity started id).run steps
  rw [false_or] at lingers
  have deleted := @delete_eq_ok_iff course.registry id
  refine ⟨?_, deleted.trans lingers.holds, ?_⟩
  · intro late
    have expired : course.registry.live? course.now id = none := by
      rw [← Option.not_isSome_iff_eq_none, lingers.live?_isSome_iff]
      exact fun live => live.2 late
    rw [get_eq lingers.agrees.sound, expired]
  · have refused : (course.registry.delete id).1 = .error .notFound ↔
        ¬ course.registry.holds id = true := by
      rw [← deleted]
      unfold delete
      split
      · simp
      · simp
    rw [refused, lingers.holds]
    tauto

/-- A session that nobody came by for is deleted a moment after its lifetime has passed, and no
longer after an unknown session was asked for in between. -/
theorem delete_of_overdue :
    let idle := (start 10 1 0).run [.create {}, .advance 11]
    let visited := (start 10 1 0).run [.create {}, .advance 11, .get "nobody"]
    idle.Overdue (sessionId 1) ∧ visited.Overdue (sessionId 1) ∧
      (idle.registry.delete (sessionId 1)).1 = .ok () ∧
      (visited.registry.delete (sessionId 1)).1 = .error .notFound := by
  intro idle visited
  have known : life? (sessionId 1) [.created {} 0 (sessionId 1)] = some ⟨⟨0, {}⟩, []⟩ := by
    simp [life?]
  have idleHistory : idle.history = [.created {} 0 (sessionId 1)] := by rfl
  have visitedHistory : visited.history = [.created {} 0 (sessionId 1)] := by rfl
  refine ⟨⟨_, idleHistory ▸ known, by decide⟩, ⟨_, visitedHistory ▸ known, by decide⟩, ?_, ?_⟩
  · decide +kernel
  · decide +kernel

end Course

end Reckoner.Registry
