import Reckoner.Calculator
import Reckoner.Proofs.Conversion
import Reckoner.Proofs.Decimal.Refusal
import Reckoner.Proofs.Lexed
import Reckoner.Proofs.Machine

/-!
# Evaluations that come to their end

The machine stops only for an operand that no number reader accepts or for a rounding that is
refused. Tokens read from a text always stand for a number, and workable settings refuse no
rounding, so an evaluation of a text ends with a report, whatever was evaluated before it.

The invariant of the run is that every token on the stack stands for a number.
-/

set_option autoImplicit false

namespace Reckoner

namespace Machine

variable {settings : Settings} {machine : Machine}

/-- Every token on the stack stands for a number in every table. -/
def StackResolves (machine : Machine) : Prop :=
  ∀ token ∈ machine.stack, token.Resolves

theorem resolves_ofResult (number : Float) : (Token.ofResult number).Resolves :=
  Token.resolves_ofNumber _ number

theorem resolve_of_resolves {operand : Option Token} (resolves : ∀ token ∈ operand, token.Resolves)
    (table : Variables) : ∃ number, resolve table operand = .ok number := by
  cases operand with
  | none => exact ⟨Binary64.zero, rfl⟩
  | some token => exact resolves token rfl table

theorem stackResolves_push {token : Token} (stack : machine.StackResolves)
    (resolves : token.Resolves) : (machine.push token).StackResolves :=
  forall_mem_push stack resolves

theorem assign_completes {target source : Option Token} (stack : machine.StackResolves)
    (resolves : ∀ token ∈ source, token.Resolves) :
    ∃ after, assign machine target source = .ok after ∧ after.StackResolves := by
  obtain ⟨number, resolved⟩ := resolve_of_resolves resolves machine.table
  simp only [assign, resolved]
  exact ⟨_, rfl, stackResolves_push stack (resolves_ofResult number)⟩

theorem operate_completes (workable : settings.Workable) (text : String)
    {left right : Option Token} (stack : machine.StackResolves)
    (leftResolves : ∀ token ∈ left, token.Resolves)
    (rightResolves : ∀ token ∈ right, token.Resolves) :
    ∃ after, operate settings machine text left right = .ok after ∧ after.StackResolves := by
  obtain ⟨x, resolvedLeft⟩ := resolve_of_resolves leftResolves machine.table
  obtain ⟨y, resolvedRight⟩ := resolve_of_resolves rightResolves machine.table
  obtain ⟨roundedX, okX⟩ := settings.precision.round_of_workable workable.precision x
  obtain ⟨roundedY, okY⟩ := settings.precision.round_of_workable workable.precision y
  obtain ⟨rounded, ok⟩ := settings.precision.round_of_workable workable.precision
    ({ machine with definesVariable := false }.compute settings text roundedX roundedY).1
  obtain ⟨flags, random, framed⟩ :=
    compute_frame settings { machine with definesVariable := false } text roundedX roundedY
  simp only [operate, operands, resolvedLeft, resolvedRight, okX, okY, ok, framed]
  exact ⟨_, rfl, stackResolves_push stack (resolves_ofResult rounded)⟩

theorem apply_completes (workable : settings.Workable) (token : Token)
    (stack : machine.StackResolves) :
    ∃ after, apply settings machine token = .ok after ∧ after.StackResolves := by
  have popped : (machine.popped token).StackResolves := forall_mem_popped stack token
  have left : ∀ other ∈ (machine.taken token).1, other.Resolves :=
    fun other isLeft => stack other (mem_stack_of_mem_taken token (.inl isLeft))
  have right : ∀ other ∈ (machine.taken token).2, other.Resolves :=
    fun other isRight => stack other (mem_stack_of_mem_taken token (.inr isRight))
  rcases apply_cases settings machine token with
    ⟨-, -, skipped⟩ | ⟨-, ⟨-, assigned⟩ | ⟨-, operated⟩⟩
  · exact ⟨machine, skipped, stack⟩
  · rw [assigned]
    exact assign_completes popped right
  · rw [operated]
    exact operate_completes workable token.text popped left right

/-- One step never stops the machine and keeps the invariant. -/
theorem step_completes (workable : settings.Workable) {token : Token} (resolves : token.Resolves)
    (stack : machine.StackResolves) :
    ∃ after, step settings machine token = .ok after ∧ after.StackResolves := by
  unfold step
  split
  · exact apply_completes workable token stack
  · exact ⟨_, rfl, stackResolves_push stack resolves⟩

theorem run_completes (workable : settings.Workable) {tokens : List Token}
    (resolve : ∀ token ∈ tokens, token.Resolves) (stack : machine.StackResolves) :
    ∃ after, run settings machine tokens = .ok after ∧ after.StackResolves := by
  induction tokens generalizing machine with
  | nil => exact ⟨machine, rfl, stack⟩
  | cons token tokens inner =>
    obtain ⟨next, stepped, kept⟩ := step_completes workable (resolve token List.mem_cons_self) stack
    obtain ⟨after, ran, still⟩ :=
      inner (fun other later => resolve other (List.mem_cons_of_mem token later)) kept
    refine ⟨after, ?_, still⟩
    rw [run_cons, stepped]
    exact ran

/-- An evaluation of tokens that stand for numbers comes to its end. -/
theorem evaluate_completes (workable : settings.Workable) {tokens : List Token}
    (resolve : ∀ token ∈ tokens, token.Resolves) (stack : machine.StackResolves) :
    ∃ result, evaluate settings machine tokens = .ok result := by
  have started : { machine with definesVariable := false }.StackResolves := stack
  obtain ⟨after, ran, kept⟩ := run_completes workable resolve started
  obtain ⟨number, resolved⟩ := resolve_of_resolves
    (fun other isHead => kept other (List.mem_of_mem_head? isHead)) after.table
  obtain ⟨rounded, ok⟩ :=
    settings.resultPrecision.round_of_workable workable.resultPrecision number
  simp only [evaluate, ran, finish, resolved, ok]
  exact ⟨_, rfl⟩

end Machine

theorem Calculator.exists_report {calculator : Calculator}
    (workable : calculator.settings.Workable) (random : RandomSource) (text : String) :
    ∃ report, (calculator.evaluate random text).1 = .ok report := by
  have resolve : ∀ token ∈ toPostfix (tokenize text), token.Resolves :=
    fun token member => resolves_of_mem_read token (mem_of_mem_toPostfix member)
  have empty : (Machine.start calculator.table random).StackResolves :=
    fun token member => absurd member List.not_mem_nil
  obtain ⟨⟨value, after⟩, evaluated⟩ := Machine.evaluate_completes workable resolve empty
  refine ⟨Calculator.report text value after, ?_⟩
  simp only [evaluate, convert, evaluated]

/-- What a calculator is used for. Its evaluations may draw from any source of random numbers. -/
inductive Calculator.Use where
  | evaluate (random : RandomSource) (text : String)
  | convert (text : String)
  | close

namespace Calculator

def use (calculator : Calculator) : Use → Calculator
  | .evaluate random text => (calculator.evaluate random text).2.1
  | .convert _ => calculator
  | .close => calculator.close

/-- The calculator after a history of uses, the first one first. -/
def history (calculator : Calculator) (uses : List Use) : Calculator :=
  uses.foldl use calculator

theorem settings_use (calculator : Calculator) (used : Use) :
    (calculator.use used).settings = calculator.settings := by
  cases used with
  | evaluate random text =>
    simp only [use, evaluate]
    split
    · rfl
    · rfl
  | convert text => rfl
  | close => rfl

theorem settings_history (calculator : Calculator) (uses : List Use) :
    (calculator.history uses).settings = calculator.settings := by
  unfold history
  induction uses generalizing calculator with
  | nil => rfl
  | cons used uses inner => rw [List.foldl_cons, inner, settings_use]

/-- What holds of the empty table, and is kept by evaluations, is kept by every history. -/
theorem table_history (property : Variables → Prop) (empty : property .empty)
    (evaluated : ∀ calculator : Calculator, property calculator.table → ∀ random text,
      property (calculator.evaluate random text).2.1.table)
    {calculator : Calculator} (holds : property calculator.table) (uses : List Use) :
    property (calculator.history uses).table := by
  unfold history
  induction uses generalizing calculator with
  | nil => exact holds
  | cons used uses inner =>
    refine inner ?_
    cases used with
    | evaluate random text => exact evaluated calculator holds random text
    | convert text => exact holds
    | close => exact empty

/-- Under workable settings every evaluation returns a report, whatever was evaluated before: the
reader of doubles accepts every numeral, every token stands for a number in every table, and no
rounding is refused. -/
theorem evaluate_returns (calculator : Calculator) (workable : calculator.settings.Workable)
    (uses : List Use) (random : RandomSource) (text : String) :
    (∃ report, ((calculator.history uses).evaluate random text).1 = .ok report) ∧
      (∀ token ∈ tokenize text, token.kind = .number →
        ∃ number, token.number? = some number ∧ readFloat? token.text = some number) ∧
      (∀ token ∈ tokenize text, ∀ table,
        ∃ number, Machine.resolve table (some token) = .ok number) ∧
      ∀ number, Decimal.roundHalfAway number 0 = .ok (Decimal.roundToWhole number) := by
  rw [← calculator.settings_history uses] at workable
  exact ⟨exists_report workable random text, readFloat?_of_mem_read, resolves_of_mem_read,
    Decimal.roundHalfAway_zero⟩

/-- Two places, after an evaluation that left a variable behind and before an unbalanced text. -/
theorem evaluate_returns_at_two_places :
    (⟨.places 2, .unset, .bool false⟩ : Settings).Workable ∧ ∃ report,
      ((history { settings := ⟨.places 2, .unset, .bool false⟩ }
        [.evaluate (.cycling []) "x=1/0", .convert ")("]).evaluate (.cycling []) "x+(").1 =
        .ok report := by
  have workable : (⟨.places 2, .unset, .bool false⟩ : Settings).Workable :=
    ⟨show Decimal.Workable 2 by decide, trivial⟩
  exact ⟨workable, (evaluate_returns { settings := ⟨.places 2, .unset, .bool false⟩ } workable
    [.evaluate (.cycling []) "x=1/0", .convert ")("] (.cycling []) "x+(").1⟩

end Calculator

end Reckoner
