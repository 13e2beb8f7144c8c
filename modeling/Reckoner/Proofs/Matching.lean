import Reckoner.Proofs.Machine
import Reckoner.Proofs.Outcome
import Reckoner.Proofs.Variables

/-!
# Machines that match

Two machines match when every name has the same value on both, the same random numbers are drawn
from them from now on, and all else is the same. In which order the names were defined, and how many
numbers have been drawn, is nothing that a step looks at: matching machines stay so, with
assignments and random numbers as with anything else, and are reported on alike.
-/

set_option autoImplicit false

namespace Reckoner

/-- Sources that give the same numbers from now on. -/
def RandomSource.Matches (first second : RandomSource) : Prop :=
  ∀ index, first.sequence (first.drawn + index) = second.sequence (second.drawn + index)

theorem RandomSource.Matches.next {first second : RandomSource} (same : first.Matches second) :
    first.next.1 = second.next.1 ∧ first.next.2.Matches second.next.2 := by
  constructor
  · exact same 0
  · intro index
    have later := same (1 + index)
    rw [← Nat.add_assoc, ← Nat.add_assoc] at later
    exact later

namespace Variables

/-- Tables in which every name has the same value or is missing from both. -/
def Matches (first second : Variables) : Prop :=
  ∀ name, first.get? name = second.get? name

theorem contains_eq_isSome (table : Variables) (name : String) :
    table.contains name = (table.get? name).isSome := by
  cases kept : table.get? name with
  | some value => exact contains_of_get? kept
  | none =>
    cases known : table.contains name with
    | false => rfl
    | true =>
      simp only [contains, List.any_eq_true, beq_iff_eq] at known
      obtain ⟨entry, member, isName⟩ := known
      have missing := List.lookup_eq_none_iff.1 kept entry member
      simp [isName] at missing

namespace Matches

variable {first second : Variables}

theorem lookup (same : first.Matches second) (name : String) :
    first.lookup name = second.lookup name := by
  rw [Variables.lookup, Variables.lookup, same name]

theorem contains (same : first.Matches second) (name : String) :
    first.contains name = second.contains name := by
  rw [contains_eq_isSome, contains_eq_isSome, same name]

theorem define (same : first.Matches second) (name : String) (value : Float) :
    (first.define name value).Matches (second.define name value) := by
  intro other
  rw [get?_define, get?_define, same other]

end Matches

/-- Tables with the same pairs of names and values, in whichever order. -/
def SamePairs (first second : Variables) : Prop :=
  ∀ entry, entry ∈ first.entries ↔ entry ∈ second.entries

theorem samePairs_iff_matches {first second : Variables} (distinct : first.names.Nodup)
    (distinctOther : second.names.Nodup) : first.SamePairs second ↔ first.Matches second := by
  constructor
  · intro same name
    apply Option.ext
    intro value
    rw [← mem_entries_iff distinct, ← mem_entries_iff distinctOther]
    exact same (name, value)
  · intro same entry
    rw [mem_entries_iff distinct, mem_entries_iff distinctOther, same entry.1]

end Variables

namespace Machine

variable {settings : Settings} {first second : Machine}

structure Matches (first second : Machine) : Prop where
  stack : first.stack = second.stack
  table : first.table.Matches second.table
  flags : first.flags = second.flags
  random : first.random.Matches second.random
  definesVariable : first.definesVariable = second.definesVariable

/-- Runs with related results, or stopped for the same cause on matching machines. -/
def Matched {Result : Type} (related : Result → Result → Prop) :
    Except Stopped Result → Except Stopped Result → Prop
  | .ok first, .ok second => related first second
  | .error first, .error second =>
    first.failure = second.failure ∧ first.machine.Matches second.machine
  | _, _ => False

theorem Matched.cases {Result : Type} {related : Result → Result → Prop}
    {first second : Except Stopped Result} (matched : Matched related first second) :
    (∃ left right, first = .ok left ∧ second = .ok right ∧ related left right) ∨
      ∃ left right, first = .error left ∧ second = .error right ∧ left.failure = right.failure ∧
        left.machine.Matches right.machine := by
  cases first with
  | error left =>
    cases second with
    | error right => exact .inr ⟨left, right, rfl, rfl, matched⟩
    | ok right => exact matched.elim
  | ok left =>
    cases second with
    | error right => exact matched.elim
    | ok right => exact .inl ⟨left, right, rfl, rfl, matched⟩

theorem Matched.bind {Start Result : Type} {started : Start → Start → Prop}
    {related : Result → Result → Prop} {first second : Except Stopped Start}
    (matched : Matched started first second) {next : Start → Except Stopped Result}
    (continued : ∀ left right, started left right → Matched related (next left) (next right)) :
    Matched related (first.bind next) (second.bind next) := by
  rcases matched.cases with ⟨left, right, rfl, rfl, same⟩ | ⟨left, right, rfl, rfl, same⟩
  · exact continued left right same
  · exact same

/-- Evaluations with the same value that leave matching machines. -/
def SameValue (first second : Float × Machine) : Prop :=
  first.1 = second.1 ∧ first.2.Matches second.2

namespace Matches

theorem resolve (same : first.Matches second) (operand : Option Token) :
    Machine.resolve first.table operand = Machine.resolve second.table operand := by
  cases operand with
  | none => rfl
  | some token => simp only [Machine.resolve, same.table.lookup]

theorem operands (same : first.Matches second) (left right : Option Token) :
    Machine.operands settings first.table left right =
      Machine.operands settings second.table left right := by
  simp only [Machine.operands, same.resolve]

theorem push (same : first.Matches second) (token : Token) :
    (first.push token).Matches (second.push token) := by
  unfold Machine.push
  split
  · exact same
  · exact { same with stack := congrArg (token :: ·) same.stack }

theorem assign (same : first.Matches second) (target source : Option Token) :
    Matched Matches (first.assign target source) (second.assign target source) := by
  have started : Matches { first with definesVariable := true }
      { second with definesVariable := true } := { same with definesVariable := rfl }
  unfold Machine.assign
  simp only [same.resolve source]
  cases Machine.resolve second.table source with
  | error refused => exact ⟨rfl, started⟩
  | ok value =>
    cases target with
    | none => exact started.push (Token.ofResult value)
    | some token =>
      have defined : Matches
          { first with definesVariable := true, table := first.table.define token.text value }
          { second with definesVariable := true, table := second.table.define token.text value } :=
        { started with table := same.table.define token.text value }
      exact defined.push (Token.ofResult value)

theorem compute (same : first.Matches second) (text : String) (x y : Float) :
    (first.compute settings text x y).1 = (second.compute settings text x y).1 ∧
      (first.compute settings text x y).2.Matches (second.compute settings text x y).2 := by
  unfold Machine.compute
  cases Operation.ofText? text with
  | none => exact ⟨rfl, same⟩
  | some operation =>
    obtain ⟨drawn, left⟩ := same.random.next
    by_cases isRandom : operation = .random
    · simp only [isRandom, if_true, drawn, same.flags]
      exact ⟨trivial, { same with flags := rfl, random := left }⟩
    · simp only [isRandom, if_false, same.flags]
      exact ⟨trivial, { same with flags := rfl }⟩

theorem operate (same : first.Matches second) (text : String) (left right : Option Token) :
    Matched Matches (Machine.operate settings first text left right)
      (Machine.operate settings second text left right) := by
  have started : Matches { first with definesVariable := false }
      { second with definesVariable := false } := { same with definesVariable := rfl }
  unfold Machine.operate
  simp only [same.operands]
  cases Machine.operands settings second.table left right with
  | error failure => exact ⟨rfl, started⟩
  | ok resolved =>
    obtain ⟨result, after⟩ := @compute settings _ _ started text resolved.1 resolved.2
    simp only [result]
    cases settings.precision.round
        ({ second with definesVariable := false }.compute settings text resolved.1 resolved.2).1 with
    | error error => exact ⟨rfl, after⟩
    | ok rounded => exact after.push (Token.ofResult rounded)

theorem step (same : first.Matches second) (token : Token) :
    Matched Matches (Machine.step settings first token) (Machine.step settings second token) := by
  unfold Machine.step
  split
  · unfold Machine.apply
    rw [same.stack]
    split
    · exact same
    · have popped : Matches { first with stack := second.stack.drop token.operandCount }
          { second with stack := second.stack.drop token.operandCount } := { same with stack := rfl }
      simp only
      split
      · exact popped.assign _ _
      · exact popped.operate token.text _ _
  · exact same.push token

theorem run (same : first.Matches second) (tokens : List Token) :
    Matched Matches (Machine.run settings first tokens) (Machine.run settings second tokens) := by
  induction tokens generalizing first second with
  | nil => exact same
  | cons token tokens inner =>
    rw [run_cons, run_cons]
    exact (same.step token).bind fun _ _ next => inner next

theorem finish (same : first.Matches second) :
    Matched SameValue (Machine.finish settings first) (Machine.finish settings second) := by
  unfold Machine.finish
  rw [same.resolve, same.stack]
  cases Machine.resolve second.table second.stack.head? with
  | error refused => exact ⟨rfl, same⟩
  | ok value =>
    have cleared : Matches { first with stack := [] } { second with stack := [] } :=
      { same with stack := rfl }
    simp only
    cases settings.resultPrecision.round value with
    | error error => exact ⟨rfl, cleared⟩
    | ok rounded => exact ⟨rfl, cleared⟩

/-- Matching machines evaluate to the same value and match afterwards. -/
theorem evaluate (same : first.Matches second) (tokens : List Token) :
    Matched SameValue (Machine.evaluate settings first tokens)
      (Machine.evaluate settings second tokens) := by
  have started : Matches { first with definesVariable := false }
      { second with definesVariable := false } := { same with definesVariable := rfl }
  rw [evaluate_eq, evaluate_eq]
  exact (started.run tokens).bind fun _ _ ran => ran.finish

end Matches

end Machine

namespace Calculator

/-- Matching machines are reported on alike. -/
theorem report_congr {first second : Machine} (same : first.Matches second) (text : String)
    (value : Float) : report text value first = report text value second := by
  have valid (token : Token) : token.isValid first.table = token.isValid second.table := by
    simp only [Token.isValid, same.table.contains]
  simp only [report, Warnings.collect, valid, same.flags, same.definesVariable]

/-- Calculators with the same settings and matching tables give the same report, and have matching
tables afterwards. -/
theorem evaluate_matches {first second : Calculator} (settings : first.settings = second.settings)
    (tables : first.table.Matches second.table) {random other : RandomSource}
    (numbers : random.Matches other) (text : String) :
    (first.evaluate random text).1 = (second.evaluate other text).1 ∧
      (first.evaluate random text).2.1.table.Matches (second.evaluate other text).2.1.table ∧
      (first.evaluate random text).2.2.Matches (second.evaluate other text).2.2 := by
  have started : (Machine.start first.table random).Matches (Machine.start second.table other) :=
    ⟨rfl, tables, rfl, numbers, rfl⟩
  have evaluated := @Machine.Matches.evaluate second.settings _ _ started (convert text).2
  unfold evaluate
  rw [settings]
  rcases evaluated.cases with
    ⟨left, right, one, two, value, after⟩ | ⟨left, right, one, two, failure, after⟩
  · simp only [one, two, value, report_congr after]
    exact ⟨trivial, after.table, after.random⟩
  · simp only [one, two, failure]
    exact ⟨trivial, after.table, after.random⟩

end Calculator

end Reckoner
