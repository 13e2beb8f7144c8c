import Reckoner.Calculator
import Reckoner.Proofs.Decimal.Repetition
import Reckoner.Proofs.Machine

/-!
# Results are rounded once

Under a precision an operation rounds its operands as well as its result, so a result that another
operation takes as an operand is rounded again, and so on through an expression. None of these
further roundings changes anything: a machine that marks the results on its stack, and that leaves
out the rounding of a marked operand, makes the same runs and stops for the same reasons.
-/

set_option autoImplicit false

namespace Reckoner

/-- The rounding of an operand that is left out if the operand is marked. -/
def Precision.roundUnless (precision : Precision) (mark : Bool) (number : Float) :
    Except Decimal.PlacesError Float :=
  if mark then .ok number else precision.round number

/-- A machine with marks for the tokens on its stack. -/
structure MarkedMachine where
  machine : Machine
  marks : List Bool

namespace MarkedMachine

/-- A token on the stack, if there is one there, and whether it is marked. -/
def operand (marked : MarkedMachine) (index : ℕ) : Option Token × Bool :=
  (marked.machine.stack[index]?, marked.marks[index]?.getD false)

/-- Both operands of an operation, resolved, and rounded unless they are marked. -/
def operands (settings : Settings) (table : Variables) (left right : Option Token × Bool) :
    Except EvaluationFailure (Float × Float) := do
  let x ← (Machine.resolve table left.1).mapError .refusedNumeral
  let y ← (Machine.resolve table right.1).mapError .refusedNumeral
  let x ← (settings.precision.roundUnless left.2 x).mapError .places
  let y ← (settings.precision.roundUnless right.2 y).mapError .places
  return (x, y)

def operate (settings : Settings) (machine : Machine) (text : String)
    (left right : Option Token × Bool) : Except Stopped Machine := do
  let machine := { machine with definesVariable := false }
  let (x, y) ← (operands settings machine.table left right).mapError (⟨·, machine⟩)
  let (result, machine) := machine.compute settings text x y
  let rounded ← (settings.precision.round result).mapError (⟨.places ·, machine⟩)
  return machine.push (Token.ofResult rounded)

/-- A token is applied. The result of an operation is marked, and so is that of an assignment whose
source is. -/
def apply (settings : Settings) (marked : MarkedMachine) (token : Token) :
    Except Stopped MarkedMachine :=
  if marked.machine.stack.isEmpty && token.text ≠ randomText then .ok marked
  else
    let right := marked.operand 0
    let left := if token.operandCount = 2 then marked.operand 1 else (none, false)
    let popped :=
      { marked.machine with stack := marked.machine.stack.drop token.operandCount }
    let rest := marked.marks.drop token.operandCount
    if token.text = assignmentText then
      (popped.assign left.1 right.1).map fun machine => ⟨machine, right.2 :: rest⟩
    else (operate settings popped token.text left right).map fun machine => ⟨machine, true :: rest⟩

/-- An operand that was read is put on the stack without a mark. -/
def push (marked : MarkedMachine) (token : Token) : MarkedMachine :=
  if token.text.isEmpty then marked else ⟨marked.machine.push token, false :: marked.marks⟩

def step (settings : Settings) (marked : MarkedMachine) (token : Token) :
    Except Stopped MarkedMachine :=
  if token.isCallable then marked.apply settings token else .ok (marked.push token)

def run (settings : Settings) (marked : MarkedMachine) (tokens : List Token) :
    Except Stopped MarkedMachine :=
  tokens.foldlM (step settings) marked

end MarkedMachine

/-! ## Marks -/

/-- A token stands for a number that rounding leaves as it is. -/
def Token.IsSettled (settings : Settings) (token : Token) : Prop :=
  ∃ number, token = Token.ofResult number ∧ settings.precision.round number = .ok number

/-- An operand is marked only if it is settled. -/
def MarksSettled (settings : Settings) (operand : Option Token × Bool) : Prop :=
  operand.2 = true → ∃ token, operand.1 = some token ∧ token.IsSettled settings

/-- Only settled tokens are marked. -/
def MarkedMachine.Valid (settings : Settings) (marked : MarkedMachine) : Prop :=
  ∀ index, MarksSettled settings (marked.operand index)

namespace MarkedMachine

variable {settings : Settings} {marked : MarkedMachine}

theorem valid_nil (machine : Machine) : Valid settings ⟨machine, []⟩ :=
  fun _ => nofun

theorem valid_cons {machine : Machine} {mark : Bool} {marks : List Bool} {token : Token}
    (first : MarksSettled settings (some token, mark)) (rest : Valid settings ⟨machine, marks⟩) :
    Valid settings ⟨{ machine with stack := token :: machine.stack }, mark :: marks⟩ := by
  intro index
  cases index with
  | zero => exact first
  | succ index => exact rest index

theorem valid_drop (valid : marked.Valid settings) (count : ℕ) :
    Valid settings ⟨{ marked.machine with stack := marked.machine.stack.drop count },
      marked.marks.drop count⟩ := by
  intro index
  simp only [operand, List.getElem?_drop]
  exact valid (count + index)

theorem valid_congr {machine other : Machine} {marks : List Bool}
    (same : machine.stack = other.stack) (valid : Valid settings ⟨other, marks⟩) :
    Valid settings ⟨machine, marks⟩ := by
  intro index
  rw [operand, same]
  exact valid index

/-! ## Operations -/

/-- A marked operand needs no rounding. -/
theorem roundUnless_eq {table : Variables} {operand : Option Token × Bool} {number : Float}
    (settled : MarksSettled settings operand)
    (resolved : Machine.resolve table operand.1 = .ok number) :
    settings.precision.roundUnless operand.2 number = settings.precision.round number := by
  unfold Precision.roundUnless
  split
  · rename_i mark
    obtain ⟨token, isToken, result, rfl, same⟩ := settled mark
    rw [isToken, Machine.resolve_ofResult] at resolved
    rw [← Except.ok.inj resolved, same]
  · rfl

theorem operands_eq {table : Variables} {left right : Option Token × Bool}
    (leftSettled : MarksSettled settings left) (rightSettled : MarksSettled settings right) :
    operands settings table left right = Machine.operands settings table left.1 right.1 := by
  unfold operands Machine.operands
  cases resolvedLeft : Machine.resolve table left.1 with
  | error refused => rfl
  | ok x =>
    cases resolvedRight : Machine.resolve table right.1 with
    | error refused => rfl
    | ok y =>
      simp only [Except.mapError, bind, Except.bind, roundUnless_eq leftSettled resolvedLeft,
        roundUnless_eq rightSettled resolvedRight]
      cases settings.precision.round x with
      | error error => rfl
      | ok roundedX =>
        cases settings.precision.round y with
        | error error => rfl
        | ok roundedY => rfl

theorem operate_eq {machine : Machine} {text : String} {left right : Option Token × Bool}
    (leftSettled : MarksSettled settings left) (rightSettled : MarksSettled settings right) :
    operate settings machine text left right =
      machine.operate settings text left.1 right.1 := by
  unfold operate Machine.operate
  simp only [operands_eq leftSettled rightSettled]
  cases Machine.operands settings machine.table left.1 right.1 with
  | error failure => rfl
  | ok numbers =>
    simp only [Except.mapError, bind, Except.bind]
    cases settings.precision.round _ with
    | error error => rfl
    | ok rounded => rfl

end MarkedMachine

namespace Machine

variable {settings : Settings} {machine next : Machine}

/-- What an operation puts on the stack is settled: its rounding is its last step. -/
theorem stack_operate {text : String} {left right : Option Token}
    (operated : operate settings machine text left right = .ok next) :
    ∃ token, next.stack = token :: machine.stack ∧ token.IsSettled settings := by
  unfold operate at operated
  simp only at operated
  split at operated
  · cases operated
  · rename_i x y _
    obtain ⟨flags, random, framed⟩ :=
      compute_frame settings { machine with definesVariable := false } text x y
    rw [framed] at operated
    split at operated
    · cases operated
    · rename_i rounded isRounded
      rw [push_ofResult] at operated
      rw [← Except.ok.inj operated]
      exact ⟨_, rfl, rounded, rfl, Precision.round_of_ok isRounded⟩

/-- What an assignment puts on the stack is settled if its source is. -/
theorem stack_assign {target : Option Token} {source : Option Token × Bool}
    (settled : MarksSettled settings source)
    (assigned : machine.assign target source.1 = .ok next) :
    ∃ token, next.stack = token :: machine.stack ∧
      MarksSettled settings (some token, source.2) := by
  obtain ⟨table, value, resolved, -, rfl⟩ := exists_of_assign assigned
  rw [push_ofResult]
  refine ⟨_, rfl, fun mark => ?_⟩
  obtain ⟨token, isToken, number, rfl, same⟩ := settled mark
  rw [isToken, resolve_ofResult] at resolved
  exact ⟨_, rfl, number, congrArg Token.ofResult (Except.ok.inj resolved).symm, same⟩

end Machine

/-! ## Runs -/

namespace MarkedMachine

variable {settings : Settings} {marked : MarkedMachine}

/-- A run with marks has stopped where the run without them has, or is where that one is, with marks
for settled tokens only. -/
inductive Agrees (settings : Settings) :
    Except Stopped MarkedMachine → Except Stopped Machine → Prop where
  | stopped (stopped : Stopped) : Agrees settings (.error stopped) (.error stopped)
  | reached {marked : MarkedMachine} (valid : marked.Valid settings) :
      Agrees settings (.ok marked) (.ok marked.machine)

theorem Agrees.map_eq {first : Except Stopped MarkedMachine} {second : Except Stopped Machine}
    (agrees : Agrees settings first second) : first.map MarkedMachine.machine = second := by
  cases agrees with
  | stopped stopped => rfl
  | reached valid => rfl

theorem agrees_map {reached : Except Stopped Machine} {marks : List Bool}
    (valid : ∀ next, reached = .ok next → Valid settings ⟨next, marks⟩) :
    Agrees settings (reached.map fun machine => ⟨machine, marks⟩) reached := by
  cases reached with
  | error stopped => exact .stopped stopped
  | ok next => exact .reached (valid next rfl)

theorem agrees_bind {first : Except Stopped MarkedMachine} {second : Except Stopped Machine}
    {following : MarkedMachine → Except Stopped MarkedMachine}
    {continued : Machine → Except Stopped Machine} (agrees : Agrees settings first second)
    (next : ∀ marked : MarkedMachine, marked.Valid settings →
      Agrees settings (following marked) (continued marked.machine)) :
    Agrees settings (first.bind following) (second.bind continued) := by
  cases agrees with
  | stopped stopped => exact .stopped stopped
  | reached valid => exact next _ valid

theorem apply_agrees (valid : marked.Valid settings) (token : Token) :
    Agrees settings (marked.apply settings token) (marked.machine.apply settings token) := by
  have isRight : marked.machine.stack.head? = (marked.operand 0).1 := List.head?_eq_getElem?
  have isLeft : (if token.operandCount = 2 then marked.machine.stack[1]? else none) =
      (if token.operandCount = 2 then marked.operand 1 else (none, false)).1 :=
    (apply_ite Prod.fst _ (marked.operand 1) (none, false)).symm
  have leftSettled : MarksSettled settings
      (if token.operandCount = 2 then marked.operand 1 else (none, false)) := by
    split
    · exact valid 1
    · exact nofun
  have rest := valid_drop valid token.operandCount
  simp only [apply, Machine.apply, isRight, isLeft]
  split
  · exact .reached valid
  · split
    · refine agrees_map fun next assigned => ?_
      obtain ⟨top, stack, settled⟩ := Machine.stack_assign (valid 0) assigned
      exact valid_congr stack (valid_cons settled rest)
    · rw [operate_eq leftSettled (valid 0)]
      refine agrees_map fun next operated => ?_
      obtain ⟨top, stack, settled⟩ := Machine.stack_operate operated
      exact valid_congr stack (valid_cons (fun _ => ⟨top, rfl, settled⟩) rest)

theorem push_agrees (valid : marked.Valid settings) (token : Token) :
    Agrees settings (.ok (marked.push token)) (.ok (marked.machine.push token)) := by
  unfold push Machine.push
  split
  · exact .reached valid
  · exact .reached (valid_cons nofun valid)

theorem step_agrees (valid : marked.Valid settings) (token : Token) :
    Agrees settings (marked.step settings token) (marked.machine.step settings token) := by
  unfold step Machine.step
  split
  · exact apply_agrees valid token
  · exact push_agrees valid token

theorem run_agrees (valid : marked.Valid settings) (tokens : List Token) :
    Agrees settings (marked.run settings tokens) (marked.machine.run settings tokens) := by
  induction tokens generalizing marked with
  | nil => exact .reached valid
  | cons token tokens inner =>
    rw [Machine.run_cons, run, List.foldlM_cons]
    exact agrees_bind (step_agrees valid token) fun _ valid => inner valid

/-- The runs that leave the further roundings out are the runs of the machine. -/
theorem run_eq (settings : Settings) (machine : Machine) (tokens : List Token) :
    (run settings ⟨machine, []⟩ tokens).map MarkedMachine.machine =
      machine.run settings tokens :=
  (run_agrees (valid_nil machine) tokens).map_eq

end MarkedMachine

/-- Rounding twice is rounding once, for doubles that are not finite and for places that are refused
as well. So a run under a precision is the same without the roundings of operands that are results
of operations. -/
theorem rounds_once (number : Float) (places : ℕ) (settings : Settings) (machine : Machine)
    (tokens : List Token) :
    ((Decimal.roundHalfAway number places).bind fun result =>
        Decimal.roundHalfAway result places) = Decimal.roundHalfAway number places ∧
      (Decimal.Workable places → ∃ result, Decimal.roundHalfAway number places = .ok result ∧
        Decimal.roundHalfAway result places = .ok result) ∧
      (MarkedMachine.run settings ⟨machine, []⟩ tokens).map MarkedMachine.machine =
        machine.run settings tokens := by
  refine ⟨?_, fun workable => ?_, MarkedMachine.run_eq settings machine tokens⟩
  · cases isRounded : Decimal.roundHalfAway number places with
    | error error => rfl
    | ok result => exact Decimal.roundHalfAway_of_ok isRounded
  · have isRounded := Decimal.roundHalfAway_of_workable number workable
    exact ⟨_, isRounded, Decimal.roundHalfAway_of_ok isRounded⟩

/-- One third to two places, and a sum of three of them. -/
theorem rounds_once_of_third :
    let third := Float.ofBits 0x3FD5555555555555
    let settings : Settings := { precision := .places 2 }
    let machine := Machine.start .empty (.cycling [])
    let tokens := (Calculator.convert "1/3+1/3+1/3").2
    Decimal.Workable 2 ∧
      (∃ result, Decimal.roundHalfAway third 2 = .ok result ∧
        Decimal.roundHalfAway result 2 = .ok result) ∧
      (MarkedMachine.run settings ⟨machine, []⟩ tokens).map MarkedMachine.machine =
        machine.run settings tokens := by
  intro third settings machine tokens
  have workable : Decimal.Workable 2 := by decide
  obtain ⟨-, accepted, same⟩ := rounds_once third 2 settings machine tokens
  exact ⟨workable, accepted workable, same⟩

end Reckoner
