import Reckoner.Evaluation

/-!
# Steps of the machine

What a step does when the operands it takes are on the stack. The number that a result is written as
plays no part in a step except that its text is never empty, so every result is pushed.
-/

set_option autoImplicit false

namespace Reckoner

namespace Decimal

theorem placePoint_ne_nil (places units : Nat) : placePoint places units ≠ [] := by
  simp [placePoint]

theorem format_isEmpty (number : Float) : (format number).isEmpty = false := by
  apply Bool.eq_false_iff.2
  intro empty
  rw [String.isEmpty_iff, ← String.toList_eq_nil_iff] at empty
  simp only [format, fixed] at empty
  split at empty
  · simp at empty
  · split at empty
    · simp at empty
    · simp [placePoint_ne_nil] at empty

end Decimal

namespace Machine

variable {settings : Settings} {machine : Machine}

theorem push_of_text {token : Token} (text : token.text.isEmpty = false) :
    machine.push token = { machine with stack := token :: machine.stack } := by
  simp [push, text]

theorem push_ofResult (number : Float) :
    machine.push (Token.ofResult number) =
      { machine with stack := Token.ofResult number :: machine.stack } :=
  push_of_text (Decimal.format_isEmpty number)

theorem resolve_ofResult (table : Variables) (number : Float) :
    resolve table (some (Token.ofResult number)) = .ok number := rfl

theorem run_append (tokens others : List Token) :
    run settings machine (tokens ++ others) =
      (run settings machine tokens).bind fun after => run settings after others :=
  List.foldlM_append

theorem run_cons (token : Token) (tokens : List Token) :
    run settings machine (token :: tokens) =
      (step settings machine token).bind fun after => run settings after tokens :=
  List.foldlM_cons

theorem run_singleton (token : Token) :
    run settings machine [token] = step settings machine token := by
  unfold run
  rw [List.foldlM_cons]
  cases step settings machine token <;> rfl

theorem step_operand {token : Token} (isOperand : token.isCallable = false)
    (text : token.text.isEmpty = false) :
    step settings machine token = .ok { machine with stack := token :: machine.stack } := by
  simp [step, isOperand, push_of_text text]

/-- A computation touches the warnings and the source of random numbers only. -/
theorem compute_frame (settings : Settings) (machine : Machine) (text : String) (x y : Float) :
    ∃ flags random, (machine.compute settings text x y).2 =
      { machine with flags := flags, random := random } := by
  unfold compute
  cases Operation.ofText? text with
  | none => exact ⟨machine.flags, machine.random, rfl⟩
  | some operation => exact ⟨_, _, rfl⟩

/-- The operands that a token finds on the stack: the left one, and the right one. -/
def taken (machine : Machine) (token : Token) : Option Token × Option Token :=
  (if token.operandCount = 2 then machine.stack[1]? else none, machine.stack.head?)

theorem mem_stack_of_mem_taken (token : Token) {operand : Token}
    (isTaken : operand ∈ (machine.taken token).1 ∨ operand ∈ (machine.taken token).2) :
    operand ∈ machine.stack := by
  rcases isTaken with isLeft | isRight
  · simp only [taken] at isLeft
    split at isLeft
    · exact List.mem_of_getElem? isLeft
    · cases isLeft
  · exact List.mem_of_mem_head? isRight

def popped (machine : Machine) (token : Token) : Machine :=
  { machine with stack := machine.stack.drop token.operandCount }

/-! What holds of every token on the stack holds after a push and after operands are taken. -/

theorem forall_mem_push {property : Token → Prop} {token : Token}
    (stack : ∀ other ∈ machine.stack, property other) (pushed : property token) :
    ∀ other ∈ (machine.push token).stack, property other := by
  unfold push
  split
  · exact stack
  · exact List.forall_mem_cons.2 ⟨pushed, stack⟩

theorem forall_mem_popped {property : Token → Prop}
    (stack : ∀ other ∈ machine.stack, property other) (token : Token) :
    ∀ other ∈ (machine.popped token).stack, property other :=
  fun other member => stack other (List.mem_of_mem_drop member)

/-- A token that is applied is skipped, or defines a variable, or computes a number. -/
theorem apply_cases (settings : Settings) (machine : Machine) (token : Token) :
    (machine.stack = [] ∧ token.text ≠ randomText ∧ apply settings machine token = .ok machine) ∨
      ((machine.stack = [] → token.text = randomText) ∧
        (token.text = assignmentText ∧ apply settings machine token =
            (machine.popped token).assign (machine.taken token).1 (machine.taken token).2 ∨
          token.text ≠ assignmentText ∧ apply settings machine token =
            operate settings (machine.popped token) token.text (machine.taken token).1
              (machine.taken token).2)) := by
  by_cases skipped : machine.stack = [] ∧ token.text ≠ randomText
  · exact .inl ⟨skipped.1, skipped.2, by simp [apply, skipped.1, skipped.2]⟩
  · have applied : (machine.stack.isEmpty && token.text ≠ randomText) = false := by
      simpa [List.isEmpty_iff] using skipped
    refine .inr ⟨fun empty => Decidable.not_not.1 fun other => skipped ⟨empty, other⟩, ?_⟩
    unfold apply
    rw [if_neg (Bool.eq_false_iff.1 applied)]
    by_cases isAssignment : token.text = assignmentText
    · exact .inl ⟨isAssignment, if_pos isAssignment⟩
    · exact .inr ⟨isAssignment, if_neg isAssignment⟩

/-! ## What a step that comes to its end has done -/

theorem table_push (machine : Machine) (token : Token) :
    (machine.push token).table = machine.table := by
  unfold push
  split
  · rfl
  · rfl

theorem flags_push (machine : Machine) (token : Token) :
    (machine.push token).flags = machine.flags := by
  unfold push
  split
  · rfl
  · rfl

theorem definesVariable_push (machine : Machine) (token : Token) :
    (machine.push token).definesVariable = machine.definesVariable := by
  unfold push
  split
  · rfl
  · rfl

theorem stack_push_ne_nil (stack : machine.stack ≠ []) (token : Token) :
    (machine.push token).stack ≠ [] := by
  unfold push
  split
  · exact stack
  · exact List.cons_ne_nil token machine.stack

/-- An assignment that comes to its end puts the value of its source on the stack, and defines the
text of its target, if there is one, by it. -/
theorem exists_of_assign {target source : Option Token} {next : Machine}
    (assigned : machine.assign target source = .ok next) :
    ∃ table value, resolve machine.table source = .ok value ∧
      table = target.elim machine.table (fun token => machine.table.define token.text value) ∧
      next = { machine with definesVariable := true, table := table }.push
        (Token.ofResult value) := by
  unfold assign at assigned
  simp only at assigned
  split at assigned
  · cases assigned
  · rename_i value resolved
    refine ⟨_, value, resolved, rfl, ?_⟩
    cases target with
    | none => exact (Except.ok.inj assigned).symm
    | some token => exact (Except.ok.inj assigned).symm

/-- An operation that comes to its end puts a result on the stack after its operands were resolved
and the result was computed. -/
theorem exists_of_operate {text : String} {left right : Option Token} {next : Machine}
    (operated : operate settings machine text left right = .ok next) :
    ∃ x y number, operands settings machine.table left right = .ok (x, y) ∧
      next = ({ machine with definesVariable := false }.compute settings text x y).2.push
        (Token.ofResult number) := by
  unfold operate at operated
  simp only at operated
  split at operated
  · cases operated
  · rename_i x y resolved
    split at operated
    · cases operated
    · exact ⟨x, y, _, resolved, (Except.ok.inj operated).symm⟩

theorem table_operate {after : Machine} {text : String} {left right : Option Token}
    (operated : operate settings machine text left right = .ok after) :
    after.table = machine.table := by
  obtain ⟨x, y, number, -, rfl⟩ := exists_of_operate operated
  obtain ⟨flags, random, framed⟩ :=
    compute_frame settings { machine with definesVariable := false } text x y
  rw [table_push, framed]

/-- What is left of a run is the number on top of the stack, rounded. -/
theorem exists_of_finish {after : Machine} {value : Float}
    (finished : machine.finish settings = .ok (value, after)) :
    ∃ number, resolve machine.table machine.stack.head? = .ok number ∧
      settings.resultPrecision.round number = .ok value ∧ after = { machine with stack := [] } := by
  unfold finish at finished
  split at finished
  · cases finished
  · rename_i number resolved
    simp only at finished
    split at finished
    · cases finished
    · rename_i rounded isRounded
      cases finished
      exact ⟨number, resolved, isRounded, rfl⟩

/-- The number on top of the stack is taken, and nothing else changes. -/
theorem finish_frame {after : Machine} {value : Float}
    (finished : machine.finish settings = .ok (value, after)) :
    after = { machine with stack := [] } := by
  obtain ⟨number, -, -, framed⟩ := exists_of_finish finished
  exact framed

theorem table_step {after : Machine} {token : Token} (noAssignment : token.text ≠ assignmentText)
    (stepped : step settings machine token = .ok after) : after.table = machine.table := by
  unfold step at stepped
  split at stepped
  · rcases apply_cases settings machine token with
      ⟨-, -, skipped⟩ | ⟨-, ⟨isAssignment, -⟩ | ⟨-, operated⟩⟩
    · rw [skipped] at stepped
      rw [← Except.ok.inj stepped]
    · exact absurd isAssignment noAssignment
    · rw [operated] at stepped
      have kept := @table_operate settings (machine.popped token) _ _ _ _ stepped
      exact kept
  · rw [← Except.ok.inj stepped, table_push]

theorem table_run {after : Machine} {tokens : List Token}
    (noAssignment : ∀ token ∈ tokens, token.text ≠ assignmentText)
    (ran : run settings machine tokens = .ok after) : after.table = machine.table := by
  induction tokens generalizing machine with
  | nil => rw [← Except.ok.inj ran]
  | cons token tokens inner =>
    rw [run_cons] at ran
    cases stepped : step settings machine token with
    | error stopped =>
      rw [stepped] at ran
      cases ran
    | ok next =>
      rw [stepped] at ran
      have kept := inner (fun other later => noAssignment other (List.mem_cons_of_mem token later)) ran
      rw [kept, table_step (noAssignment token List.mem_cons_self) stepped]

variable {stack : List Token}

theorem step_unary {token right : Token} (callable : token.isCallable = true)
    (one : token.operandCount = 1) (text : token.text ≠ assignmentText)
    (top : machine.stack = right :: stack) :
    step settings machine token =
      operate settings { machine with stack := stack } token.text none (some right) := by
  simp [step, callable, apply, top, one, text]

theorem step_binary {token left right : Token} (callable : token.isCallable = true)
    (two : token.operandCount = 2) (text : token.text ≠ assignmentText)
    (top : machine.stack = right :: left :: stack) :
    step settings machine token =
      operate settings { machine with stack := stack } token.text (some left) (some right) := by
  simp [step, callable, apply, top, two, text]

theorem step_assignment {token left right : Token} (callable : token.isCallable = true)
    (two : token.operandCount = 2) (text : token.text = assignmentText)
    (top : machine.stack = right :: left :: stack) :
    step settings machine token =
      assign { machine with stack := stack } (some left) (some right) := by
  simp [step, callable, apply, top, two, text]

end Machine

end Reckoner
