import Reckoner.Calculator
import Reckoner.Proofs.Conversion
import Reckoner.Proofs.Outcome
import Reckoner.Proofs.TreeValue

/-!
# Evaluations that draw nothing

Only the token for a random number draws from the source. An evaluation without this token leaves
the source as it was, and everything it reports and stores is the same for every source.
-/

set_option autoImplicit false

namespace Reckoner

namespace Machine

variable {settings : Settings}

/-- The machine with another source of random numbers. -/
def drawingFrom (random : RandomSource) (machine : Machine) : Machine :=
  { machine with random := random }

/-- A run with another source of random numbers at its end. -/
def endingWith (random : RandomSource) : Except Stopped Machine → Except Stopped Machine
  | .ok after => .ok (after.drawingFrom random)
  | .error stopped => .error ⟨stopped.failure, stopped.machine.drawingFrom random⟩

theorem push_drawingFrom (random : RandomSource) (machine : Machine) (token : Token) :
    (machine.drawingFrom random).push token = (machine.push token).drawingFrom random := by
  unfold push
  split
  · rfl
  · rfl

theorem compute_drawingFrom (random : RandomSource) (machine : Machine) {text : String}
    (noRandom : text ≠ randomText) (x y : Float) :
    (machine.drawingFrom random).compute settings text x y =
      ((machine.compute settings text x y).1,
        (machine.compute settings text x y).2.drawingFrom random) := by
  unfold compute
  cases found : Operation.ofText? text with
  | none => rfl
  | some operation =>
    have other : operation ≠ .random := by
      rintro rfl
      exact noRandom (Operation.text_of_random found)
    simp only [other, if_false]
    rfl

theorem assign_drawingFrom (random : RandomSource) (machine : Machine)
    (target source : Option Token) :
    (machine.drawingFrom random).assign target source =
      endingWith random (machine.assign target source) := by
  unfold assign
  simp only [drawingFrom]
  cases resolve machine.table source with
  | error refused => rfl
  | ok value =>
    cases target with
    | none =>
      exact congrArg Except.ok (push_drawingFrom random { machine with definesVariable := true }
        (Token.ofResult value))
    | some token =>
      exact congrArg Except.ok (push_drawingFrom random
        { machine with
          definesVariable := true, table := machine.table.define token.text value }
        (Token.ofResult value))

theorem operate_drawingFrom (random : RandomSource) (machine : Machine) {text : String}
    (noRandom : text ≠ randomText) (left right : Option Token) :
    operate settings (machine.drawingFrom random) text left right =
      endingWith random (operate settings machine text left right) := by
  unfold operate
  simp only [drawingFrom]
  cases operands settings machine.table left right with
  | error failure => rfl
  | ok resolved =>
    have computed := @compute_drawingFrom settings random { machine with definesVariable := false }
      text noRandom resolved.1 resolved.2
    simp only [drawingFrom] at computed
    simp only [computed]
    cases settings.precision.round
        (compute settings { machine with definesVariable := false } text resolved.1 resolved.2).1 with
    | error error => rfl
    | ok rounded => exact congrArg Except.ok (push_drawingFrom random _ _)

theorem step_drawingFrom (random : RandomSource) (machine : Machine) {token : Token}
    (noRandom : token.text ≠ randomText) :
    step settings (machine.drawingFrom random) token =
      endingWith random (step settings machine token) := by
  have sameStack : (machine.drawingFrom random).stack = machine.stack := rfl
  unfold step
  split
  · unfold apply
    rw [sameStack]
    split
    · rfl
    · simp only
      split
      · exact assign_drawingFrom random (machine.popped token) _ _
      · exact operate_drawingFrom random (machine.popped token) noRandom _ _
  · exact congrArg Except.ok (push_drawingFrom random machine token)

theorem run_drawingFrom (random : RandomSource) (machine : Machine) {tokens : List Token}
    (noRandom : ∀ token ∈ tokens, token.text ≠ randomText) :
    run settings (machine.drawingFrom random) tokens =
      endingWith random (run settings machine tokens) := by
  induction tokens generalizing machine with
  | nil => rfl
  | cons token tokens inner =>
    have later : ∀ other ∈ tokens, other.text ≠ randomText :=
      fun other member => noRandom other (List.mem_cons_of_mem token member)
    rw [run_cons, run_cons, step_drawingFrom random machine (noRandom token List.mem_cons_self)]
    cases step settings machine token with
    | error stopped => rfl
    | ok next => exact inner next later

theorem finish_drawingFrom (random : RandomSource) (machine : Machine) :
    finish settings (machine.drawingFrom random) =
      match finish settings machine with
      | .ok (value, after) => .ok (value, after.drawingFrom random)
      | .error stopped => .error ⟨stopped.failure, stopped.machine.drawingFrom random⟩ := by
  unfold finish
  simp only [drawingFrom]
  cases resolve machine.table machine.stack.head? with
  | error refused => rfl
  | ok value =>
    simp only
    cases settings.resultPrecision.round value with
    | error error => rfl
    | ok rounded => rfl

theorem evaluate_drawingFrom (random : RandomSource) (machine : Machine) {tokens : List Token}
    (noRandom : ∀ token ∈ tokens, token.text ≠ randomText) :
    evaluate settings (machine.drawingFrom random) tokens =
      match evaluate settings machine tokens with
      | .ok (value, after) => .ok (value, after.drawingFrom random)
      | .error stopped => .error ⟨stopped.failure, stopped.machine.drawingFrom random⟩ := by
  have ran := @run_drawingFrom settings random { machine with definesVariable := false } tokens
    noRandom
  simp only [drawingFrom] at ran
  unfold evaluate
  simp only [drawingFrom, ran]
  cases run settings { machine with definesVariable := false } tokens with
  | error stopped => rfl
  | ok after => exact finish_drawingFrom random after

end Machine

namespace Calculator

/-- Without random numbers, an evaluation gives the same report and leaves the same calculator
whatever the source is, and draws nothing from it. -/
theorem evaluate_source (calculator : Calculator) (random other : RandomSource) {text : String}
    (noRandom : ∀ token ∈ tokenize text, token.text ≠ randomText) :
    (calculator.evaluate random text).1 = (calculator.evaluate other text).1 ∧
      (calculator.evaluate random text).2.1 = (calculator.evaluate other text).2.1 ∧
      (calculator.evaluate random text).2.2 = random := by
  have evaluated := @Machine.evaluate_drawingFrom calculator.settings random
    (.start calculator.table other) (toPostfix (tokenize text))
    (fun token member => noRandom token (mem_of_mem_toPostfix member))
  have started : (Machine.start calculator.table other).drawingFrom random =
      .start calculator.table random := rfl
  rw [started] at evaluated
  unfold evaluate convert
  simp only [evaluated]
  cases Machine.evaluate calculator.settings (.start calculator.table other)
      (toPostfix (tokenize text)) with
  | error stopped => exact ⟨rfl, rfl, rfl⟩
  | ok finished => exact ⟨rfl, rfl, rfl⟩

end Calculator

end Reckoner
