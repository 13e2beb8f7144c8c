import Reckoner.Proofs.Registry.Live
import Mathlib.Data.List.Chain

/-!
# What has happened to sessions

A registry is worked on step by step, and what happens to its sessions is noted. Whether a session
should be there is read off these notes: it was created, it has neither been deleted nor cleared
since, and no gap between its accesses, the last of them now, is longer than the lifetime.
-/

set_option autoImplicit false

namespace Reckoner.Registry

/-- What is done with a registry. Whoever holds a calculator may change it at any time. -/
inductive Step where
  | create (settings : Settings)
  | get (id : String)
  | delete (id : String)
  | clear
  | store (id : String) (calculator : Calculator)
  | advance (span : Nat)

/-- What has happened to the sessions of a registry. -/
inductive Event where
  | created (settings : Settings) (moment : Int) (id : String)
  | fetched (moment : Int) (id : String)
  | deleted (id : String)
  | cleared
  | changed (id : String) (calculator : Calculator)

namespace Event

/-- The event of a request, which is none if it was refused. -/
def ofOutcome {Result : Type} (event : Result → Event) : Except RegistryError Result → List Event
  | .ok result => [event result]
  | .error _ => []

/-- The identifier of the session that an event created. -/
def createdId? : Event → Option String
  | created _ _ id => some id
  | _ => none

end Event

/-- A registry at a moment, with what has happened to its sessions, the latest event first. -/
structure Course where
  registry : Registry
  now : Int
  history : List Event

namespace Course

def start (lifetime capacity now : Int) : Course :=
  ⟨{ lifetime := lifetime, capacity := capacity }, now, []⟩

def step (course : Course) : Step → Course
  | .create settings =>
    let (outcome, registry) := course.registry.create course.now settings
    { course with
      registry := registry
      history := Event.ofOutcome (.created settings course.now) outcome ++ course.history }
  | .get id =>
    let (outcome, registry) := course.registry.get course.now id
    { course with
      registry := registry
      history := Event.ofOutcome (fun _ => .fetched course.now id) outcome ++ course.history }
  | .delete id =>
    let (outcome, registry) := course.registry.delete id
    { course with
      registry := registry
      history := Event.ofOutcome (fun _ => .deleted id) outcome ++ course.history }
  | .clear =>
    { course with registry := course.registry.clear, history := .cleared :: course.history }
  | .store id calculator =>
    { course with
      registry := course.registry.store id calculator
      history := .changed id calculator :: course.history }
  | .advance span => { course with now := course.now + span }

def run (course : Course) (steps : List Step) : Course :=
  steps.foldl step course

end Course

/-! ## What a history says -/

/-- The life of a session: its accesses, of which there is at least one, and its calculator. -/
structure Life extends LiveSession where
  /-- The accesses before the last one, the latest first. -/
  earlier : List Int

/-- The life of the session with an identifier: `none` unless it was created and has neither been
deleted nor cleared since. -/
def life? (id : String) : List Event → Option Life
  | [] => none
  | .created settings moment other :: history =>
    if id = other then some ⟨⟨moment, { settings := settings }⟩, []⟩ else life? id history
  | .fetched moment other :: history =>
    if id = other then
      (life? id history).map fun life =>
        ⟨⟨moment, life.calculator⟩, life.lastAccess :: life.earlier⟩
    else life? id history
  | .deleted other :: history => if id = other then none else life? id history
  | .cleared :: _ => none
  | .changed other calculator :: history =>
    if id = other then
      (life? id history).map fun life => ⟨⟨life.lastAccess, calculator⟩, life.earlier⟩
    else life? id history

/-- No gap between consecutive accesses, the last of them now, is longer than the lifetime. -/
def Life.IsUnexpired (lifetime now : Int) (life : Life) : Prop :=
  (now :: life.lastAccess :: life.earlier).IsChain fun later before => later - before ≤ lifetime

/-- The session with an identifier is there by its history, with a certain life. -/
def IsAlive (lifetime now : Int) (history : List Event) (id : String) (life : Life) : Prop :=
  life? id history = some life ∧ life.IsUnexpired lifetime now

instance (lifetime now : Int) (life : Life) : Decidable (life.IsUnexpired lifetime now) :=
  inferInstanceAs (Decidable (List.IsChain _ _))

/-- The session with an identifier, if it is there by its history. -/
def told? (lifetime now : Int) (history : List Event) (id : String) : Option LiveSession :=
  ((life? id history).filter fun life => life.IsUnexpired lifetime now).map Life.toLiveSession

theorem told?_eq_some_iff {lifetime now : Int} {history : List Event} {id : String}
    {session : LiveSession} :
    told? lifetime now history id = some session ↔
      ∃ life, IsAlive lifetime now history id life ∧ life.toLiveSession = session := by
  simp [told?, IsAlive, Option.map_eq_some_iff, Option.filter_eq_some_iff]

section

variable (lifetime now : Int) (history : List Event) (id other : String)

theorem told?_created (settings : Settings) :
    told? lifetime now (.created settings now other :: history) id =
      if id = other then
        (some ⟨now, { settings := settings }⟩ : Option LiveSession).filter (·.isWithin lifetime now)
      else told? lifetime now history id := by
  unfold told?
  rw [life?]
  split
  · by_cases within : (0 : Int) ≤ lifetime
    · simp [Option.filter, Life.IsUnexpired, LiveSession.isWithin, within]
    · simp [Option.filter, Life.IsUnexpired, LiveSession.isWithin, within]
  · rfl

theorem told?_fetched :
    told? lifetime now (.fetched now other :: history) id =
      if id = other then
        ((told? lifetime now history id).map fun session =>
          { session with lastAccess := now }).filter (·.isWithin lifetime now)
      else told? lifetime now history id := by
  unfold told?
  rw [life?]
  split
  · cases life? id history with
    | none => rfl
    | some life =>
      by_cases unexpired : life.IsUnexpired lifetime now
      · by_cases within : 0 ≤ lifetime
        · simp_all [Option.filter, Life.IsUnexpired, LiveSession.isWithin]
        · simp_all [Option.filter, Life.IsUnexpired, LiveSession.isWithin]
      · -- an access does not bring back a session that was left alone for too long before
        have expired : ¬ Life.IsUnexpired lifetime now
            ⟨⟨now, life.calculator⟩, life.lastAccess :: life.earlier⟩ :=
          fun chain => unexpired (List.isChain_cons_cons.1 chain).2
        simp [Option.filter, unexpired, expired]
  · rfl

theorem told?_deleted :
    told? lifetime now (.deleted other :: history) id =
      if id = other then none else told? lifetime now history id := by
  unfold told?
  rw [life?]
  split
  · rfl
  · rfl

theorem told?_changed (calculator : Calculator) :
    told? lifetime now (.changed other calculator :: history) id =
      if id = other then
        (told? lifetime now history id).map fun session => { session with calculator := calculator }
      else told? lifetime now history id := by
  unfold told?
  rw [life?]
  split
  · cases life? id history with
    | none => rfl
    | some life =>
      have sameGaps : Life.IsUnexpired lifetime now
          ⟨⟨life.lastAccess, calculator⟩, life.earlier⟩ ↔ life.IsUnexpired lifetime now := Iff.rfl
      by_cases unexpired : life.IsUnexpired lifetime now
      · simp [Option.filter, sameGaps, unexpired]
      · simp [Option.filter, sameGaps, unexpired]
  · rfl

theorem told?_later (span : Nat) :
    told? lifetime (now + span) history id =
      (told? lifetime now history id).filter (·.isWithin lifetime (now + span)) := by
  unfold told?
  cases life? id history with
  | none => rfl
  | some life =>
    have later : life.IsUnexpired lifetime (now + span) ↔
        life.IsUnexpired lifetime now ∧
          life.toLiveSession.isWithin lifetime (now + span) = true := by
      simp only [Life.IsUnexpired, List.isChain_cons_cons, LiveSession.isWithin, decide_eq_true_eq]
      constructor
      · rintro ⟨gap, gaps⟩
        exact ⟨⟨by omega, gaps⟩, gap⟩
      · rintro ⟨⟨-, gaps⟩, gap⟩
        exact ⟨gap, gaps⟩
    by_cases unexpired : life.IsUnexpired lifetime now
    · cases within : life.toLiveSession.isWithin lifetime (now + span) with
      | true => simp [Option.filter, later, unexpired, within]
      | false => simp [Option.filter, later, unexpired, within]
    · simp [Option.filter, later, unexpired]

end

end Reckoner.Registry
