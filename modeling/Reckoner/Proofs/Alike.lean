import Reckoner.Proofs.Outcome
import Reckoner.Proofs.TreeValue

/-!
# Machines that compute alike

Two machines compute alike when they have the same table, the same source of random numbers, and the
same numbers on their stacks; the tokens that stand for these numbers may differ, and so may the
warnings. As long as nothing is assigned, no step tells such machines apart.
-/

set_option autoImplicit false

namespace Reckoner.Machine

variable {settings : Settings} {first second : Machine}

def numbers (machine : Machine) : List (Except RefusedNumeral Float) :=
  machine.stack.map fun token => resolve machine.table (some token)

/-- Machines that differ at most in what no computation looks at. -/
structure Alike (first second : Machine) : Prop where
  table : first.table = second.table
  random : first.random = second.random
  numbers : first.numbers = second.numbers

/-- Runs that end alike, or stop for the same cause with the same table and source. -/
def AlikeRuns : Except Stopped Machine → Except Stopped Machine → Prop
  | .ok first, .ok second => Alike first second
  | .error first, .error second => first.failure = second.failure ∧
      first.machine.table = second.machine.table ∧ first.machine.random = second.machine.random
  | _, _ => False

theorem AlikeRuns.refl (run : Except Stopped Machine) : AlikeRuns run run := by
  cases run with
  | error stopped => exact ⟨rfl, rfl, rfl⟩
  | ok machine => exact ⟨rfl, rfl, rfl⟩

theorem resolve_head? (machine : Machine) :
    resolve machine.table machine.stack.head? =
      machine.numbers.head?.getD (.ok Binary64.zero) := by
  rw [numbers, List.head?_map]
  cases machine.stack.head? <;> rfl

theorem resolve_taken (machine : Machine) (token : Token) :
    resolve machine.table (machine.taken token).1 =
        (if token.operandCount = 2 then machine.numbers[1]? else none).getD (.ok Binary64.zero) ∧
      resolve machine.table (machine.taken token).2 =
        machine.numbers.head?.getD (.ok Binary64.zero) := by
  constructor
  · unfold taken numbers
    simp only
    split
    · rw [List.getElem?_map]
      cases machine.stack[1]? <;> rfl
    · rfl
  · exact machine.resolve_head?

theorem numbers_popped (machine : Machine) (token : Token) :
    (machine.popped token).numbers = machine.numbers.drop token.operandCount := by
  simp only [numbers, popped, List.map_drop]

theorem stack_eq_nil_iff (machine : Machine) : machine.stack = [] ↔ machine.numbers = [] := by
  simp [numbers]

namespace Alike

theorem popped (alike : Alike first second) (token : Token) :
    Alike (first.popped token) (second.popped token) :=
  ⟨alike.table, alike.random, by rw [numbers_popped, numbers_popped, alike.numbers]⟩

theorem push (alike : Alike first second) (token : Token) :
    Alike (first.push token) (second.push token) := by
  unfold Machine.push
  split
  · exact alike
  · refine ⟨alike.table, alike.random, ?_⟩
    have inside := alike.numbers
    simp only [Machine.numbers, List.map_cons, alike.table] at inside ⊢
    rw [inside]

theorem compute (alike : Alike first second) (text : String) (x y : Float) :
    (first.compute settings text x y).1 = (second.compute settings text x y).1 ∧
      Alike (first.compute settings text x y).2 (second.compute settings text x y).2 := by
  unfold Machine.compute
  cases Operation.ofText? text with
  | none => exact ⟨rfl, alike⟩
  | some operation =>
    rw [alike.random]
    refine ⟨?_, alike.table, rfl, alike.numbers⟩
    exact operation.apply_flags settings.inDegrees _ first.flags second.flags x y

theorem operate (alike : Alike first second) (text : String) {left right other another : Option Token}
    (sameLeft : resolve first.table left = resolve second.table other)
    (sameRight : resolve first.table right = resolve second.table another) :
    AlikeRuns (Machine.operate settings first text left right)
      (Machine.operate settings second text other another) := by
  have same : operands settings first.table left right =
      operands settings second.table other another := by
    simp only [operands, sameLeft, sameRight]
  have started : Alike { first with definesVariable := false }
      { second with definesVariable := false } := ⟨alike.table, alike.random, alike.numbers⟩
  simp only [Machine.operate, same]
  cases operands settings second.table other another with
  | error failure => exact ⟨rfl, alike.table, alike.random⟩
  | ok rounded =>
    obtain ⟨result, after⟩ := @compute settings _ _ started text rounded.1 rounded.2
    simp only [result]
    cases settings.precision.round
        ({ second with definesVariable := false }.compute settings text rounded.1 rounded.2).1 with
    | error error => exact ⟨rfl, after.table, after.random⟩
    | ok number => exact after.push (Token.ofResult number)

theorem apply (alike : Alike first second) {token : Token} (noAssignment : token.text ≠ assignmentText) :
    AlikeRuns (Machine.apply settings first token) (Machine.apply settings second token) := by
  have left : resolve first.table (first.taken token).1 =
      resolve second.table (second.taken token).1 := by
    rw [(first.resolve_taken token).1, (second.resolve_taken token).1, alike.numbers]
  have right : resolve first.table (first.taken token).2 =
      resolve second.table (second.taken token).2 := by
    rw [(first.resolve_taken token).2, (second.resolve_taken token).2, alike.numbers]
  have empty : first.stack = [] ↔ second.stack = [] := by
    rw [stack_eq_nil_iff, stack_eq_nil_iff, alike.numbers]
  rcases apply_cases settings first token with
    ⟨noStack, noRandom, skipped⟩ | ⟨filled, ⟨isAssignment, -⟩ | ⟨-, operated⟩⟩
  · rcases apply_cases settings second token with
      ⟨-, -, skippedToo⟩ | ⟨filled, -⟩
    · rw [skipped, skippedToo]
      exact alike
    · exact absurd (filled (empty.1 noStack)) noRandom
  · exact absurd isAssignment noAssignment
  · rcases apply_cases settings second token with
      ⟨noStack, noRandom, -⟩ | ⟨-, ⟨isAssignment, -⟩ | ⟨-, operatedToo⟩⟩
    · exact absurd (filled (empty.2 noStack)) noRandom
    · exact absurd isAssignment noAssignment
    · rw [operated, operatedToo]
      exact (alike.popped token).operate token.text left right

theorem step (alike : Alike first second) {token : Token} (noAssignment : token.text ≠ assignmentText) :
    AlikeRuns (Machine.step settings first token) (Machine.step settings second token) := by
  unfold Machine.step
  split
  · exact alike.apply noAssignment
  · exact alike.push token

/-- No run without assignments tells machines apart that compute alike. -/
theorem run (alike : Alike first second) {tokens : List Token}
    (noAssignment : ∀ token ∈ tokens, token.text ≠ assignmentText) :
    AlikeRuns (Machine.run settings first tokens) (Machine.run settings second tokens) := by
  induction tokens generalizing first second with
  | nil => exact alike
  | cons token tokens inner =>
    have stepped := @step settings first second alike token (noAssignment token List.mem_cons_self)
    rw [run_cons, run_cons]
    revert stepped
    cases Machine.step settings first token with
    | error stopped =>
      cases Machine.step settings second token with
      | error other => exact id
      | ok other => exact False.elim
    | ok machine =>
      cases Machine.step settings second token with
      | error other => exact False.elim
      | ok other =>
        intro next
        exact inner next fun later member => noAssignment later (List.mem_cons_of_mem token member)

end Alike

theorem AlikeRuns.outcome {run other : Except Stopped Machine} (alike : AlikeRuns run other) :
    Machine.outcome (run.bind (finish settings)) =
      Machine.outcome (other.bind (finish settings)) := by
  cases run with
  | error stopped =>
    cases other with
    | error another =>
      obtain ⟨cause, table, random⟩ := alike
      simp only [Except.bind, Machine.outcome, cause, table, random]
    | ok machine => exact alike.elim
  | ok machine =>
    cases other with
    | error stopped => exact alike.elim
    | ok another =>
      have top : resolve machine.table machine.stack.head? =
          resolve another.table another.stack.head? := by
        rw [resolve_head?, resolve_head?, Alike.numbers alike]
      simp only [Except.bind, finish, top]
      cases resolve another.table another.stack.head? with
      | error refused => simp only [Machine.outcome, Alike.table alike, Alike.random alike]
      | ok number =>
        simp only
        cases settings.resultPrecision.round number with
        | error error => simp only [Machine.outcome, Alike.table alike, Alike.random alike]
        | ok rounded => simp only [Machine.outcome, Alike.table alike, Alike.random alike]

end Reckoner.Machine
