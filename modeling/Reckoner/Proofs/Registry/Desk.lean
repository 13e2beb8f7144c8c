import Reckoner.Proofs.Drawing
import Reckoner.Proofs.Registry.Live

/-!
# Requests for sessions

Requests for any number of sessions reach one registry in any order. A session is asked through the
registry, which fetches its calculator first and keeps it as it is afterwards.
-/

set_option autoImplicit false

namespace Reckoner

/-- What a calculator can be asked. -/
inductive Inquiry where
  | evaluate (text : String)
  | convert (text : String)
  | listVariables

/-- What a calculator says. An evaluation is answered with the variables that it leaves. -/
inductive Answer where
  | evaluated (outcome : Except EvaluationFailure Report) (table : Variables)
  | converted (tokens reordered : List Token)
  | listed (table : Variables)

namespace Inquiry

/-- The answer of a calculator, with the calculator and the source of random numbers after it. -/
def answer (calculator : Calculator) (random : RandomSource) :
    Inquiry → Answer × Calculator × RandomSource
  | evaluate text =>
    let (outcome, after, random) := calculator.evaluate random text
    (.evaluated outcome after.table, after, random)
  | convert text =>
    let (tokens, reordered) := Calculator.convert text
    (.converted tokens reordered, calculator, random)
  | listVariables => (.listed calculator.table, calculator, random)

/-- The inquiries that need no random number. -/
def DrawsNothing : Inquiry → Prop
  | evaluate text => ∀ token ∈ tokenize text, token.text ≠ randomText
  | _ => True

theorem answer_source (calculator : Calculator) (random other : RandomSource) {inquiry : Inquiry}
    (drawsNothing : inquiry.DrawsNothing) :
    (inquiry.answer calculator random).1 = (inquiry.answer calculator other).1 ∧
      (inquiry.answer calculator random).2.1 = (inquiry.answer calculator other).2.1 := by
  cases inquiry with
  | evaluate text =>
    obtain ⟨sameOutcome, sameAfter, -⟩ := calculator.evaluate_source random other drawsNothing
    simp only [answer, sameOutcome, sameAfter, and_self]
  | convert text => exact ⟨rfl, rfl⟩
  | listVariables => exact ⟨rfl, rfl⟩

end Inquiry

/-- A registry at a moment, with the source of random numbers that its calculators share. -/
structure Desk where
  registry : Registry
  now : Int
  random : RandomSource

namespace Desk

inductive Request where
  | create (settings : Settings)
  | get (id : String)
  | ask (id : String) (inquiry : Inquiry)
  | delete (id : String)
  | clear
  | advance (span : Nat)

inductive Outcome where
  | created (outcome : Except RegistryError String)
  | fetched (outcome : Except RegistryError Calculator)
  | answered (outcome : Except RegistryError Answer)
  | deleted (outcome : Except RegistryError Unit)
  | done

/-- A desk without sessions, after some identifiers have been given out. -/
def start (lifetime capacity : Int) (issued : Nat) (now : Int) (random : RandomSource) : Desk :=
  ⟨{ lifetime := lifetime, capacity := capacity, issued := issued }, now, random⟩

def perform (desk : Desk) : Request → Outcome × Desk
  | .create settings =>
    let (outcome, registry) := desk.registry.create desk.now settings
    (.created outcome, { desk with registry := registry })
  | .get id =>
    let (outcome, registry) := desk.registry.get desk.now id
    (.fetched outcome, { desk with registry := registry })
  | .ask id inquiry =>
    let (outcome, registry) := desk.registry.get desk.now id
    match outcome with
    | .error error => (.answered (.error error), { desk with registry := registry })
    | .ok calculator =>
      let (answer, after, random) := inquiry.answer calculator desk.random
      (.answered (.ok answer), { desk with registry := registry.store id after, random := random })
  | .delete id =>
    let (outcome, registry) := desk.registry.delete id
    (.deleted outcome, { desk with registry := registry })
  | .clear => (.done, { desk with registry := desk.registry.clear })
  | .advance span => (.done, { desk with now := desk.now + span })

/-- Requests one after the other, each with its outcome. -/
def transcript (desk : Desk) : List Request → List (Request × Outcome)
  | [] => []
  | request :: requests =>
    (request, (desk.perform request).1) :: (desk.perform request).2.transcript requests

/-! ## What a request does -/

variable {desk : Desk}

theorem perform_get (sound : desk.registry.Sound) (id : String) :
    (desk.perform (.get id)).1 = .fetched
      (match desk.registry.live? desk.now id with
      | some session => .ok session.calculator
      | none => .error .notFound) := by
  have outcome : (desk.perform (.get id)).1 = .fetched (desk.registry.get desk.now id).1 := rfl
  rw [outcome, Registry.get_eq sound]
  cases desk.registry.live? desk.now id with
  | none => rfl
  | some session => rfl

theorem perform_ask (sound : desk.registry.Sound) (id : String) (inquiry : Inquiry) :
    desk.perform (.ask id inquiry) =
      match desk.registry.live? desk.now id with
      | some session =>
        (.answered (.ok (inquiry.answer session.calculator desk.random).1),
          { desk with
            registry := (desk.registry.get desk.now id).2.store id
              (inquiry.answer session.calculator desk.random).2.1
            random := (inquiry.answer session.calculator desk.random).2.2 })
      | none =>
        (.answered (.error .notFound),
          { desk with registry := (desk.registry.get desk.now id).2 }) := by
  have fetched := congrArg Prod.fst (Registry.get_eq sound desk.now id)
  unfold perform
  simp only [fetched]
  cases desk.registry.live? desk.now id with
  | none => rfl
  | some session => rfl

theorem narrows_ask (sound : desk.registry.Sound) (id : String) (inquiry : Inquiry) :
    desk.registry.Narrows (desk.perform (.ask id inquiry)).2.registry ∧
      (desk.perform (.ask id inquiry)).2.now = desk.now := by
  have fetched := sound.narrows_get desk.now id
  rw [perform_ask sound]
  cases desk.registry.live? desk.now id with
  | none => exact ⟨fetched, rfl⟩
  | some session => exact ⟨fetched.trans (fetched.sound.narrows_store id _), rfl⟩

/-- A session that is asked is accessed thereby and has its calculator changed, and no other one is
touched. -/
theorem live?_ask (sound : desk.registry.Sound) (id other : String) (inquiry : Inquiry) :
    (desk.perform (.ask id inquiry)).2.registry.live? desk.now other =
      if other = id then
        ((desk.registry.live? desk.now id).map fun session =>
          ⟨desk.now, (inquiry.answer session.calculator desk.random).2.1⟩).filter
            (·.isWithin desk.registry.lifetime desk.now)
      else desk.registry.live? desk.now other := by
  have fetched := Registry.live?_get sound desk.now id other
  rw [perform_ask sound]
  cases live : desk.registry.live? desk.now id with
  | none =>
    simp only
    rw [fetched, live]
    rfl
  | some session =>
    simp only
    rw [Registry.live?_store, fetched, live]
    split
    · by_cases within : (0 : Int) ≤ desk.registry.lifetime
      · simp [Option.filter, LiveSession.isWithin, within]
      · simp [Option.filter, LiveSession.isWithin, within]
    · rfl

end Desk

end Reckoner
