import Reckoner.Proofs.Machine
import Reckoner.Proofs.Outcome

/-!
# The ends of runs

A run ends on a machine whether or not it was stopped, and the table of that machine is what an
evaluation leaves behind. So what is said here of a step and of a run holds for both ends: a step
puts nothing on the stack but its token and results, and defines nothing but the text of a token
that was on the stack.
-/

set_option autoImplicit false

namespace Reckoner

namespace Machine

/-- A property of the machine at the end of a run, whether or not the run was stopped. -/
def EndsWith (property : Machine → Prop) : Except Stopped Machine → Prop
  | .ok after => property after
  | .error stopped => property stopped.machine

variable {settings : Settings} {machine : Machine}

theorem EndsWith.mono {property other : Machine → Prop} {run : Except Stopped Machine}
    (ends : EndsWith property run) (implies : ∀ after, property after → other after) :
    EndsWith other run := by
  cases run with
  | error stopped => exact implies _ ends
  | ok after => exact implies _ ends

/-- A stack with at most a result more than another one. -/
def AddsResult (stack later : List Token) : Prop :=
  later = stack ∨ ∃ number, later = Token.ofResult number :: stack

theorem endsWith_assign (machine : Machine) (target source : Option Token) :
    EndsWith (fun after => AddsResult machine.stack after.stack ∧
      (after.table = machine.table ∨
        ∃ token ∈ target, ∃ value, after.table = machine.table.define token.text value))
      (machine.assign target source) := by
  unfold assign
  simp only
  cases resolve machine.table source with
  | error refused => exact ⟨.inl rfl, .inl rfl⟩
  | ok value =>
    simp only [push_ofResult]
    refine ⟨.inr ⟨value, rfl⟩, ?_⟩
    cases target with
    | none => exact .inl rfl
    | some token => exact .inr ⟨token, rfl, value, rfl⟩

theorem endsWith_operate (settings : Settings) (machine : Machine) (text : String)
    (left right : Option Token) :
    EndsWith (fun after => AddsResult machine.stack after.stack ∧ after.table = machine.table)
      (operate settings machine text left right) := by
  unfold operate
  simp only
  cases operands settings machine.table left right with
  | error failure => exact ⟨.inl rfl, rfl⟩
  | ok resolved =>
    obtain ⟨flags, random, framed⟩ := compute_frame settings
      { machine with definesVariable := false } text resolved.1 resolved.2
    simp only [framed]
    cases settings.precision.round
        (compute settings { machine with definesVariable := false } text resolved.1 resolved.2).1 with
    | error error => exact ⟨.inl rfl, rfl⟩
    | ok rounded =>
      simp only [push_ofResult]
      exact ⟨.inr ⟨rounded, rfl⟩, rfl⟩

/-- What a token can do to the stack and to the table. -/
structure Leads (machine : Machine) (token : Token) (after : Machine) : Prop where
  stack : ∀ other ∈ after.stack, other ∈ machine.stack ∨
    (other = token ∧ token.isCallable = false) ∨ ∃ number, other = Token.ofResult number
  table : after.table = machine.table ∨
    ∃ target ∈ machine.stack, ∃ value, after.table = machine.table.define target.text value

theorem mem_stack_of_addsResult {token : Token} {later : List Token}
    (adds : AddsResult (machine.popped token).stack later) :
    ∀ other ∈ later, other ∈ machine.stack ∨
      (other = token ∧ token.isCallable = false) ∨ ∃ number, other = Token.ofResult number := by
  have before : ∀ other ∈ (machine.popped token).stack, other ∈ machine.stack :=
    fun other member => List.mem_of_mem_drop member
  intro other member
  rcases adds with same | ⟨number, result⟩
  · exact .inl (before other (same ▸ member))
  · rw [result] at member
    rcases List.mem_cons.1 member with isResult | earlier
    · exact .inr (.inr ⟨number, isResult⟩)
    · exact .inl (before other earlier)

theorem endsWith_step (settings : Settings) (machine : Machine) (token : Token) :
    EndsWith (Leads machine token) (step settings machine token) := by
  unfold step
  split
  · rcases apply_cases settings machine token with
      ⟨-, -, skipped⟩ | ⟨-, ⟨-, assigned⟩ | ⟨-, operated⟩⟩
    · rw [skipped]
      exact ⟨fun _ => .inl, .inl rfl⟩
    · rw [assigned]
      refine (endsWith_assign (machine.popped token) _ _).mono ?_
      rintro after ⟨adds, same | ⟨target, isTaken, defined⟩⟩
      · exact ⟨mem_stack_of_addsResult adds, .inl same⟩
      · exact ⟨mem_stack_of_addsResult adds,
          .inr ⟨target, mem_stack_of_mem_taken token (.inl isTaken), defined⟩⟩
    · rw [operated]
      refine (endsWith_operate settings (machine.popped token) _ _ _).mono ?_
      rintro after ⟨adds, same⟩
      exact ⟨mem_stack_of_addsResult adds, .inl same⟩
  · rename_i noCallable
    have pushed : ∀ other ∈ (machine.push token).stack, other ∈ machine.stack ∨
        (other = token ∧ token.isCallable = false) ∨ ∃ number, other = Token.ofResult number :=
      forall_mem_push (fun other => .inl) (.inr (.inl ⟨rfl, Bool.eq_false_iff.2 noCallable⟩))
    exact ⟨pushed, .inl (machine.table_push token)⟩

/-- A run keeps what its tokens keep. -/
theorem endsWith_run {property : Machine → Prop} {tokens : List Token}
    (keeps : ∀ token ∈ tokens, ∀ machine after : Machine, property machine →
      Leads machine token after → property after)
    (holds : property machine) : EndsWith property (run settings machine tokens) := by
  induction tokens generalizing machine with
  | nil => exact holds
  | cons token tokens inner =>
    have stepped := (endsWith_step settings machine token).mono fun after leads =>
      keeps token List.mem_cons_self machine after holds leads
    rw [run_cons]
    cases next : step settings machine token with
    | error stopped =>
      rw [next] at stepped
      exact stepped
    | ok after =>
      rw [next] at stepped
      exact inner (fun other later => keeps other (List.mem_cons_of_mem token later)) stepped

theorem outcome_finish_table (machine : Machine) :
    (outcome (machine.finish settings)).2.1 = machine.table := by
  unfold finish
  cases resolve machine.table machine.stack.head? with
  | error refused => rfl
  | ok value =>
    simp only
    cases settings.resultPrecision.round value with
    | error error => rfl
    | ok rounded => rfl

end Machine

/-- The table that an evaluation leaves is that of the machine at the end of its run. -/
theorem Calculator.table_evaluate (property : Variables → Prop) {calculator : Calculator}
    {random : RandomSource} {text : String}
    (ends : Machine.EndsWith (fun after => property after.table)
      (Machine.run calculator.settings (Machine.start calculator.table random)
        (toPostfix (tokenize text)))) :
    property (calculator.evaluate random text).2.1.table := by
  have observed := congrArg (·.2.1.table) (calculator.outcome_eq random text)
  simp only [outcome, Machine.evaluate_eq] at observed
  rw [observed]
  change Machine.EndsWith _ (Machine.run calculator.settings
    { Machine.start calculator.table random with definesVariable := false } _) at ends
  cases ran : Machine.run calculator.settings
      { Machine.start calculator.table random with definesVariable := false }
      (toPostfix (tokenize text)) with
  | error stopped =>
    rw [ran] at ends
    exact ends
  | ok after =>
    rw [ran] at ends
    simp only [Except.bind, Machine.outcome_finish_table]
    exact ends

end Reckoner
