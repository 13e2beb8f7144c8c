import Reckoner.Calculator
import Reckoner.Proofs.Machine

/-!
# Outcomes of evaluations

Of an evaluation the value, the variables and the random numbers matter to what is evaluated later;
the warnings and the texts of the report do not.
-/

set_option autoImplicit false

namespace Reckoner

/-- The value of an evaluation on the machine, with the table and the source that it leaves. -/
def Machine.outcome : Except Stopped (Float × Machine) →
    Except EvaluationFailure Float × Variables × RandomSource
  | .ok (value, after) => (.ok value, after.table, after.random)
  | .error stopped => (.error stopped.failure, stopped.machine.table, stopped.machine.random)

namespace Calculator

/-- The value of evaluating a text, with the calculator and the source of random numbers after it. -/
def outcome (calculator : Calculator) (random : RandomSource) (text : String) :
    Except EvaluationFailure Float × Calculator × RandomSource :=
  ((calculator.evaluate random text).1.map Report.value, (calculator.evaluate random text).2)

theorem outcome_eq (calculator : Calculator) (random : RandomSource) (text : String) :
    calculator.outcome random text =
      let observed := Machine.outcome ((Machine.start calculator.table random).evaluate
        calculator.settings (toPostfix (tokenize text)))
      (observed.1, { calculator with table := observed.2.1 }, observed.2.2) := by
  unfold outcome evaluate convert
  simp only
  cases Machine.evaluate calculator.settings (Machine.start calculator.table random)
      (toPostfix (tokenize text)) with
  | error stopped => rfl
  | ok finished => rfl

end Calculator

/-- The report on another spelling of an expression. -/
def Report.respell (expression : String) (report : Report) : Report :=
  { report with expression := expression }

/-- Texts that are read as the same tokens and evaluated alike: of an evaluation only the expression
that the report repeats tells them apart. -/
structure SameMeaning (first second : String) : Prop where
  tokens : tokenize first = tokenize second
  evaluation : ∀ (calculator : Calculator) (random : RandomSource),
    calculator.evaluate random first =
      ((calculator.evaluate random second).1.map (Report.respell first),
        (calculator.evaluate random second).2)

/-- A text means what its tokens say. -/
theorem sameMeaning_of_tokens {first second : String} (same : tokenize first = tokenize second) :
    SameMeaning first second := by
  refine ⟨same, ?_⟩
  intro calculator random
  have converted : Calculator.convert first = Calculator.convert second := by
    simp only [Calculator.convert, same]
  unfold Calculator.evaluate Calculator.report
  simp only [converted]
  cases Machine.evaluate calculator.settings (Machine.start calculator.table random)
      (Calculator.convert second).2 with
  | error stopped => rfl
  | ok finished => rfl

namespace Machine

/-- An evaluation is a run and what is made of the number that it leaves on top of the stack. -/
theorem evaluate_eq (settings : Settings) (machine : Machine) (tokens : List Token) :
    machine.evaluate settings tokens =
      (run settings { machine with definesVariable := false } tokens).bind (finish settings) := by
  unfold evaluate
  cases run settings { machine with definesVariable := false } tokens with
  | error stopped => rfl
  | ok after => rfl

end Machine

namespace Calculator

theorem definesVariable_report (text : String) (value : Float) (machine : Machine) :
    (report text value machine).definesVariable = machine.definesVariable := by
  unfold report Report.definesVariable
  cases machine.definesVariable with
  | true => rfl
  | false => rfl

/-- An evaluation that is reported on has come to the end of its run. The report is on the rounded
value of what was on top of the stack then. -/
theorem exists_of_evaluate {calculator : Calculator} {random : RandomSource} {text : String}
    {report : Report} (evaluated : (calculator.evaluate random text).1 = .ok report) :
    ∃ after number value,
      Machine.run calculator.settings (Machine.start calculator.table random) (convert text).2 =
        .ok after ∧
      Machine.resolve after.table after.stack.head? = .ok number ∧
      calculator.settings.resultPrecision.round number = .ok value ∧
      report = Calculator.report text value { after with stack := [] } ∧
      (calculator.evaluate random text).2 =
        ({ calculator with table := after.table }, after.random) := by
  unfold evaluate at evaluated ⊢
  simp only at evaluated ⊢
  cases finished : (Machine.start calculator.table random).evaluate calculator.settings
      (convert text).2 with
  | error stopped =>
    rw [finished] at evaluated
    cases evaluated
  | ok result =>
    rw [finished] at evaluated
    obtain ⟨value, cleared⟩ := result
    rw [Machine.evaluate_eq] at finished
    change (Machine.run calculator.settings (Machine.start calculator.table random)
      (convert text).2).bind _ = _ at finished
    cases ran : Machine.run calculator.settings (Machine.start calculator.table random)
        (convert text).2 with
    | error stopped =>
      rw [ran] at finished
      cases finished
    | ok after =>
      rw [ran] at finished
      obtain ⟨number, resolved, rounded, rfl⟩ := Machine.exists_of_finish finished
      exact ⟨after, number, value, rfl, resolved, rounded, (Except.ok.inj evaluated).symm, rfl⟩

end Calculator

end Reckoner
