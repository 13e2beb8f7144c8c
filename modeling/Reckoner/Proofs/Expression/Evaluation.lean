import Reckoner.Proofs.Completion
import Reckoner.Proofs.Expression.Tokens

/-!
# The machine against direct evaluation

The machine that runs the tokens of a tree in postfix order does what the recursion on the tree does,
from any stack: it puts one token for the operand on the stack and leaves the same variables, warnings
and source of random numbers, or it stops for the same refused rounding with the same variables and
source. The main statement carries this to the texts of expressions.
-/

set_option autoImplicit false

namespace Reckoner

namespace Operand

def IsToken (token : Token) : Operand → Prop
  | value number => token.kind ≠ .name ∧ token.number? = some number
  | reference name => token.kind = .name ∧ token.text = name

theorem resolve_of_isToken {token : Token} {operand : Operand} (isToken : operand.IsToken token)
    (table : Variables) : Machine.resolve table (some token) = .ok (operand.read table) := by
  cases operand with
  | value number => simp [Machine.resolve, isToken.1, isToken.2, read]
  | reference name => simp [Machine.resolve, isToken.1, isToken.2, read]

theorem isToken_ofResult (number : Float) : (value number).IsToken (Token.ofResult number) :=
  ⟨by simp [Token.ofResult, Token.ofNumber], rfl⟩

end Operand

/-- The machine with the given stack that holds what an evaluation reads and writes. -/
def Memory.machine (memory : Memory) (stack : List Token) (definesVariable : Bool) : Machine :=
  ⟨stack, memory.table, memory.flags, memory.random, definesVariable⟩

/-- A run of the machine that does what an evaluation does: the operand is on top of the stack, or
the run stops for the same cause. -/
def Answers (stack : List Token) (definesVariable : Bool) :
    EStateM.Result Decimal.PlacesError Memory Operand → Except Stopped Machine → Prop
  | .ok operand memory, run =>
    ∃ token, operand.IsToken token ∧ run = .ok (memory.machine (token :: stack) definesVariable)
  | .error error memory, run =>
    ∃ stopped : Stopped, run = .error stopped ∧ stopped.failure = .places error ∧
      stopped.machine.table = memory.table ∧ stopped.machine.random = memory.random

namespace Evaluation

theorem bind_ok {α β : Type} {first : Evaluation α} {memory after : Memory} {value : α}
    (ran : first memory = .ok value after) (following : α → Evaluation β) :
    (first >>= following) memory = following value after := by
  simp only [bind, EStateM.bind, ran]

theorem bind_error {α β : Type} {first : Evaluation α} {memory after : Memory}
    {error : Decimal.PlacesError} (ran : first memory = .error error after)
    (following : α → Evaluation β) : (first >>= following) memory = .error error after := by
  simp only [bind, EStateM.bind, ran]

theorem rounded_of_ok {precision : Precision} {number result : Float}
    (ok : precision.round number = .ok result) (memory : Memory) :
    rounded precision number memory = .ok result memory := by
  simp only [rounded, ok]
  rfl

theorem rounded_of_error {precision : Precision} {number : Float} {error : Decimal.PlacesError}
    (refused : precision.round number = .error error) (memory : Memory) :
    rounded precision number memory = .error error memory := by
  simp only [rounded, refused]
  rfl

theorem answers_operate (settings : Settings) (operation : Operation) {left right : Operand}
    {leftToken rightToken : Option Token} {memory : Memory}
    (resolvedLeft : Machine.resolve memory.table leftToken = .ok (left.read memory.table))
    (resolvedRight : Machine.resolve memory.table rightToken = .ok (right.read memory.table))
    (stack : List Token) (before : Bool) :
    Answers stack false (operate settings operation left right memory)
      (Machine.operate settings (memory.machine stack before) operation.text leftToken
        rightToken) := by
  have start : operate settings operation left right memory =
      (do
        let x ← rounded settings.precision (left.read memory.table)
        let y ← rounded settings.precision (right.read memory.table)
        let draw :=
          if operation = .random then memory.random.next else (Binary64.zero, memory.random)
        let computed := operation.apply settings.inDegrees draw.1 memory.flags x y
        set { memory with flags := computed.2, random := draw.2 }
        return .value (← rounded settings.precision computed.1) : Evaluation Operand) memory := rfl
  rw [start]
  simp only [Machine.operate, Machine.operands, Memory.machine, resolvedLeft, resolvedRight]
  cases roundedLeft : settings.precision.round (left.read memory.table) with
  | error error =>
    rw [bind_error (rounded_of_error roundedLeft memory)]
    exact ⟨_, rfl, rfl, rfl, rfl⟩
  | ok x =>
    rw [bind_ok (rounded_of_ok roundedLeft memory)]
    cases roundedRight : settings.precision.round (right.read memory.table) with
    | error error =>
      rw [bind_error (rounded_of_error roundedRight memory)]
      exact ⟨_, rfl, rfl, rfl, rfl⟩
    | ok y =>
      rw [bind_ok (rounded_of_ok roundedRight memory)]
      simp only [Machine.compute, Operation.ofText?_text]
      generalize (if operation = .random then memory.random.next
        else (Binary64.zero, memory.random)) = draw
      obtain ⟨drawn, random⟩ := draw
      generalize operation.apply settings.inDegrees drawn memory.flags x y = computed
      obtain ⟨result, flags⟩ := computed
      have written : (set { memory with flags := flags, random := random } : Evaluation PUnit)
          memory = .ok ⟨⟩ ⟨memory.table, flags, random⟩ := rfl
      simp only
      rw [bind_ok written]
      cases roundedResult : settings.precision.round result with
      | error error =>
        rw [bind_error (rounded_of_error roundedResult _)]
        exact ⟨_, rfl, rfl, rfl, rfl⟩
      | ok number =>
        rw [bind_ok (rounded_of_ok roundedResult _)]
        exact ⟨Token.ofResult number, Operand.isToken_ofResult number,
          congrArg Except.ok (Machine.push_ofResult number)⟩

theorem answers_assign {target source : Token} {operand : Operand} {memory : Memory}
    (resolved : Machine.resolve memory.table (some source) = .ok (operand.read memory.table))
    (stack : List Token) (before : Bool) :
    Answers stack true (assign target.text operand memory)
      (Machine.assign (memory.machine stack before) (some target) (some source)) := by
  simp only [Machine.assign, Memory.machine, resolved]
  exact ⟨Token.ofResult _, Operand.isToken_ofResult _, congrArg Except.ok (Machine.push_ofResult _)⟩

end Evaluation

namespace Expression

open Evaluation

/-- What the machine knows about definitions after an expression. -/
def definesAfter (before : Bool) : Expression → Bool
  | .numeral _ _ | signed _ _ _ | reference _ => before
  | assignment _ _ => true
  | _ => false

/-- What follows an operand on the machine, given that the operand's run does what its evaluation
does: a stop ends both, and otherwise the rest runs with the operand's token on the stack. -/
theorem answers_bind {settings : Settings} {stack deeper : List Token} {before defines : Bool}
    {first : Evaluation Operand} {following : Operand → Evaluation Operand} {memory : Memory}
    {machine : Machine} {tokens others : List Token}
    (answered : Answers deeper before (first memory) (Machine.run settings machine tokens))
    (continued : ∀ (operand : Operand) (token : Token) (after : Memory), operand.IsToken token →
      Answers stack defines (following operand after)
        (Machine.run settings (after.machine (token :: deeper) before) others)) :
    Answers stack defines ((first >>= following) memory)
      (Machine.run settings machine (tokens ++ others)) := by
  rw [Machine.run_append]
  cases ran : first memory with
  | ok operand after =>
    rw [ran] at answered
    obtain ⟨token, isToken, finished⟩ := answered
    rw [bind_ok ran, finished]
    exact continued operand token after isToken
  | error error after =>
    rw [ran] at answered
    obtain ⟨stopped, finished, cause⟩ := answered
    rw [bind_error ran, finished]
    exact ⟨stopped, rfl, cause⟩

theorem answers_unary {settings : Settings} (operation : Operation) {token : Token}
    (callable : token.isCallable = true) (one : token.operandCount = 1)
    (text : token.text = operation.text) {operand : Expression} {stack : List Token}
    {before between : Bool} {memory : Memory}
    (inner : Answers stack between (operand.evaluate settings memory)
      (Machine.run settings (memory.machine stack before) operand.tree.postorder)) :
    Answers stack false
      ((operand.evaluate settings >>= operate settings operation (.value Binary64.zero)) memory)
      (Machine.run settings (memory.machine stack before) (operand.tree.postorder ++ [token])) := by
  have noAssignment : token.text ≠ assignmentText := by
    rw [text]
    cases operation with
    | bytes unit => cases unit <;> decide
    | _ => decide
  refine answers_bind inner fun right rightToken after isRight => ?_
  rw [Machine.run_singleton, Machine.step_unary callable one noAssignment rfl, text]
  exact answers_operate settings operation rfl (Operand.resolve_of_isToken isRight _) stack between

theorem answers_number {settings : Settings} {text : String} (nonempty : text.isEmpty = false)
    (number : Float) (stack : List Token) (before : Bool) (memory : Memory) :
    Answers stack before (.ok (.value number) memory)
      (Machine.run settings (memory.machine stack before) [Token.ofNumber text number]) := by
  refine ⟨Token.ofNumber text number, ⟨by simp [Token.ofNumber], rfl⟩, ?_⟩
  rw [Machine.run_singleton, Machine.step_operand rfl nonempty]
  rfl

theorem answers_run (settings : Settings) (expression : Expression) (stack : List Token)
    (before : Bool) (memory : Memory) :
    Answers stack (expression.definesAfter before) (expression.evaluate settings memory)
      (Machine.run settings (memory.machine stack before) expression.tree.postorder) := by
  induction expression generalizing stack before memory with
  | numeral digits written =>
    obtain ⟨first, others, shape, -⟩ := digits.chars_head written
    exact answers_number (by simp [shape]) _ stack before memory
  | signed sign digits written =>
    exact answers_number (by simp) _ stack before memory
  | reference name =>
    refine ⟨Token.name name.text, ⟨rfl, rfl⟩, ?_⟩
    rw [tree, Tree.postorder, Machine.run_singleton, Machine.step_operand rfl name.text_ne_empty]
    rfl
  | binary operation isBinary left right leftInner rightInner =>
    have two : (Token.operator operation.text).operandCount = 2 := by
      cases operation <;> simp_all [Operation.isBinary] <;> decide
    have noAssignment : (Token.operator operation.text).text ≠ assignmentText := by
      cases operation <;> simp_all [Operation.isBinary] <;> decide
    rw [tree, Tree.postorder, List.append_assoc]
    refine answers_bind (leftInner stack before memory) fun x leftToken between isLeft => ?_
    refine answers_bind (rightInner (leftToken :: stack) _ between)
      fun y rightToken after isRight => ?_
    rw [Machine.run_singleton, Machine.step_binary rfl two noAssignment rfl]
    exact answers_operate settings operation (Operand.resolve_of_isToken isLeft _)
      (Operand.resolve_of_isToken isRight _) stack _
  | factorial operand inner =>
    exact answers_unary .factorial rfl rfl rfl (inner stack before memory)
  | call operation isFunction argument inner =>
    exact answers_unary operation rfl rfl rfl (inner stack before memory)
  | measured operand unit inner =>
    exact answers_unary (.bytes unit) rfl rfl rfl (inner stack before memory)
  | assignment name source inner =>
    have target : Machine.step settings (memory.machine stack before) (Token.name name.text) =
        .ok (memory.machine (Token.name name.text :: stack) before) :=
      Machine.step_operand rfl name.text_ne_empty
    rw [tree, Tree.postorder, Tree.postorder, List.append_assoc, Machine.run_append,
      Machine.run_singleton, target]
    refine answers_bind (inner (Token.name name.text :: stack) before memory)
      fun operand sourceToken after isSource => ?_
    rw [Machine.run_singleton, Machine.step_assignment rfl rfl rfl rfl]
    exact answers_assign (Operand.resolve_of_isToken isSource _) stack _

theorem machine_evaluate (settings : Settings) (expression : Expression) (memory : Memory) :
    match expression.result settings memory with
    | .ok value after =>
      Machine.evaluate settings (memory.machine [] false) (toPostfix expression.tokens) =
        .ok (value, after.machine [] expression.isAssignment)
    | .error error after =>
      ∃ stopped : Stopped,
        Machine.evaluate settings (memory.machine [] false) (toPostfix expression.tokens) =
          .error stopped ∧ stopped.failure = .places error ∧
          stopped.machine.table = after.table ∧ stopped.machine.random = after.random := by
  have answered := expression.answers_run settings [] false memory
  have defines : expression.definesAfter false = expression.isAssignment := by
    cases expression <;> rfl
  have cleared : Machine.evaluate settings (memory.machine [] false) expression.tree.postorder =
      (Machine.run settings (memory.machine [] false) expression.tree.postorder).bind
        (Machine.finish settings) := by
    rw [Machine.evaluate]
    have same : { memory.machine [] false with definesVariable := false } =
        memory.machine [] false := rfl
    rw [same]
    cases Machine.run settings (memory.machine [] false) expression.tree.postorder <;> rfl
  rw [(expression.derives.mono (by decide)).toPostfix_eq, cleared]
  unfold result
  cases ran : expression.evaluate settings memory with
  | error error after =>
    rw [ran] at answered
    obtain ⟨stopped, finished, cause⟩ := answered
    rw [bind_error ran, finished]
    exact ⟨stopped, rfl, cause⟩
  | ok operand after =>
    rw [ran, defines] at answered
    obtain ⟨token, isToken, finished⟩ := answered
    have start : (do
        let memory ← get
        rounded settings.resultPrecision (operand.read memory.table) : Evaluation Float) after =
        rounded settings.resultPrecision (operand.read after.table) after := rfl
    rw [bind_ok ran, start, finished]
    have resolved := Operand.resolve_of_isToken isToken after.table
    simp only [Except.bind, Machine.finish, Memory.machine, List.head?_cons, resolved]
    cases roundedResult : settings.resultPrecision.round (operand.read after.table) with
    | error error =>
      rw [rounded_of_error roundedResult after]
      exact ⟨_, rfl, rfl, rfl, rfl⟩
    | ok value =>
      rw [rounded_of_ok roundedResult after]

theorem result_of_workable {calculator : Calculator} (workable : calculator.settings.Workable)
    (random : RandomSource) (expression : Expression) :
    ∃ value after,
      expression.result calculator.settings ⟨calculator.table, {}, random⟩ = .ok value after := by
  have evaluated :=
    machine_evaluate calculator.settings expression ⟨calculator.table, {}, random⟩
  obtain ⟨report, returned⟩ := Calculator.exists_report workable random expression.text
  cases ran : expression.result calculator.settings ⟨calculator.table, {}, random⟩ with
  | ok value after => exact ⟨value, after, rfl⟩
  | error error after =>
    rw [ran] at evaluated
    obtain ⟨stopped, finished, -⟩ := evaluated
    have start : Machine.evaluate calculator.settings (Machine.start calculator.table random)
        (Calculator.convert expression.text).2 = .error stopped := by
      rw [Calculator.convert, expression.tokenize_text]
      exact finished
    simp only [Calculator.evaluate, start] at returned
    cases returned

/-- The text of an expression is evaluated to the value, the variables, the warnings and the random
numbers of the recursive evaluation, or refused for the same rounding. Under workable settings it is
not refused. -/
theorem evaluate_text (calculator : Calculator) (random : RandomSource) (expression : Expression) :
    let result := expression.result calculator.settings ⟨calculator.table, {}, random⟩
    (match result with
      | .ok value after =>
        ∃ report, calculator.evaluate random expression.text =
            (.ok report, { calculator with table := after.table }, after.random) ∧
          report.value = value ∧ report.warnings.flags = after.flags ∧
          report.definesVariable = expression.isAssignment
      | .error error after =>
        calculator.evaluate random expression.text =
          (.error (.places error), { calculator with table := after.table }, after.random)) ∧
      (calculator.settings.Workable → ∃ value after, result = .ok value after) := by
  refine ⟨?_, fun workable => result_of_workable workable random expression⟩
  have evaluated :=
    machine_evaluate calculator.settings expression ⟨calculator.table, {}, random⟩
  cases ran : expression.result calculator.settings ⟨calculator.table, {}, random⟩ with
  | error error after =>
    rw [ran] at evaluated
    obtain ⟨stopped, finished, failure, table, source⟩ := evaluated
    have start : Machine.evaluate calculator.settings (Machine.start calculator.table random)
        (Calculator.convert expression.text).2 = .error stopped := by
      rw [Calculator.convert, expression.tokenize_text]
      exact finished
    simp only [Calculator.evaluate, start, failure, table, source]
  | ok value after =>
    rw [ran] at evaluated
    have start : Machine.evaluate calculator.settings (Machine.start calculator.table random)
        (Calculator.convert expression.text).2 =
        .ok (value, after.machine [] expression.isAssignment) := by
      rw [Calculator.convert, expression.tokenize_text]
      exact evaluated
    refine ⟨Calculator.report expression.text value (after.machine [] expression.isAssignment),
      ?_, rfl, rfl, ?_⟩
    · simp only [Calculator.evaluate, start]
      rfl
    · simp only [Report.definesVariable, Calculator.report, Memory.machine]
      cases expression.isAssignment <;> rfl

/-- A product of a sum and a definition, under settings that round to two places. -/
theorem evaluate_text_of_product :
    let settings : Settings := ⟨.places 2, .unset, .bool false⟩
    let x : VariableName := ⟨"x", by decide, by decide⟩
    let y : VariableName := ⟨"y", by decide, by decide⟩
    let expression : Expression := .binary .multiply rfl
      (.binary .add rfl (.reference x) (.reference y)) (.assignment x (.reference y))
    settings.Workable ∧ expression.text = "( ( x + y ) * ( x = y ) )" ∧
      ∃ value after, expression.result settings ⟨.empty, {}, .cycling []⟩ = .ok value after := by
  intro settings x y expression
  have workable : settings.Workable := ⟨show Decimal.Workable 2 by decide, trivial⟩
  exact ⟨workable, by decide +kernel,
    (evaluate_text { settings := settings } (.cycling []) expression).2 workable⟩

end Expression

end Reckoner
