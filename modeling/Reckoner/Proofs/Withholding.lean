import Mathlib.Data.List.Induction
import Reckoner.Proofs.Outcome
import Reckoner.Proofs.Machine
import Reckoner.Proofs.Variables

/-!
# Withheld results

A result is withheld if the last applied token of its run is an assignment. From there on the run
does nothing but put operands on the stack, so what the assignment stored is still stored at the end,
and its value is on top of the stack unless an operand follows it.
-/

set_option autoImplicit false

namespace Reckoner

namespace Machine

variable {settings : Settings} {machine : Machine}

/-- A token of a run that is applied, with no token after it that could be. -/
structure AppliesLast (settings : Settings) (machine : Machine) (tokens : List Token)
    (reached : Machine) (token : Token) (later : List Token) : Prop where
  reaches : ∃ before, tokens = before ++ token :: later ∧ run settings machine before = .ok reached
  callable : token.isCallable = true
  applied : reached.stack ≠ [] ∨ token.text = randomText
  isLast : ∀ other ∈ later, other.isCallable = false

theorem AppliesLast.append_operand {tokens later : List Token} {reached : Machine} {token : Token}
    (appliesLast : AppliesLast settings machine tokens reached token later) {operand : Token}
    (noCallable : operand.isCallable = false) :
    AppliesLast settings machine (tokens ++ [operand]) reached token (later ++ [operand]) := by
  obtain ⟨before, whole, ran⟩ := appliesLast.reaches
  refine ⟨⟨before, ?_, ran⟩, appliesLast.callable, appliesLast.applied, ?_⟩
  · rw [whole, List.append_assoc, List.cons_append]
  · intro other member
    rcases List.mem_append.1 member with earlier | last
    · exact appliesLast.isLast other earlier
    · rw [List.mem_singleton.1 last]
      exact noCallable

theorem assign_ok {target source : Option Token} {next : Machine}
    (assigned : machine.assign target source = .ok next) :
    ∃ value, resolve machine.table source = .ok value ∧
      next.stack = Token.ofResult value :: machine.stack ∧
      ∀ token ∈ target, next.table.get? token.text = some value := by
  obtain ⟨table, value, resolved, defined, rfl⟩ := exists_of_assign assigned
  rw [push_ofResult]
  refine ⟨value, resolved, rfl, ?_⟩
  rintro token isTarget
  cases isTarget
  rw [defined]
  exact (Variables.get?_define machine.table token.text token.text value).trans (if_pos rfl)

theorem operate_ok {text : String} {left right : Option Token} {next : Machine}
    (operated : operate settings machine text left right = .ok next) :
    next.stack ≠ [] ∧ next.definesVariable = false := by
  obtain ⟨x, y, number, -, rfl⟩ := exists_of_operate operated
  obtain ⟨flags, random, framed⟩ :=
    compute_frame settings { machine with definesVariable := false } text x y
  rw [push_ofResult, framed]
  exact ⟨List.cons_ne_nil _ _, rfl⟩

/-- A step leaves the mark of a definition if it applies an assignment, or puts an operand on the
stack of a machine with the mark. It skips nothing then: there is a result on the stack. -/
theorem marked_of_step {token : Token} {after : Machine}
    (stack : machine.definesVariable = true → machine.stack ≠ [])
    (stepped : step settings machine token = .ok after) (marked : after.definesVariable = true) :
    after.stack ≠ [] ∧
      (token.isCallable = true ∧ token.text = assignmentText ∧
          (machine.stack ≠ [] ∨ token.text = randomText) ∨
        token.isCallable = false ∧ machine.definesVariable = true) := by
  unfold step at stepped
  split at stepped
  · rename_i callable
    rcases apply_cases settings machine token with
      ⟨empty, -, skipped⟩ | ⟨draws, ⟨isAssignment, assigned⟩ | ⟨-, operated⟩⟩
    · rw [skipped] at stepped
      cases stepped
      exact absurd empty (stack marked)
    · have applied : machine.stack ≠ [] ∨ token.text = randomText := by
        by_cases empty : machine.stack = []
        · exact .inr (draws empty)
        · exact .inl empty
      rw [assigned] at stepped
      obtain ⟨value, -, top, -⟩ := assign_ok stepped
      refine ⟨?_, .inl ⟨callable, isAssignment, applied⟩⟩
      rw [top]
      exact List.cons_ne_nil _ _
    · rw [operated] at stepped
      rw [(operate_ok stepped).2] at marked
      cases marked
  · rename_i noCallable
    obtain rfl := Except.ok.inj stepped
    rw [definesVariable_push] at marked
    exact ⟨stack_push_ne_nil (stack marked) token, .inr ⟨Bool.eq_false_iff.2 noCallable, marked⟩⟩

/-- A run that ends with the mark of a definition has an assignment as its last applied token. -/
theorem exists_appliesLast {tokens : List Token} {after : Machine}
    (unmarked : machine.definesVariable = false) (ran : run settings machine tokens = .ok after)
    (marked : after.definesVariable = true) :
    after.stack ≠ [] ∧ ∃ reached token later,
      AppliesLast settings machine tokens reached token later ∧ token.text = assignmentText := by
  -- the last step decides, so the induction is on the end of the run
  induction tokens using List.reverseRecOn generalizing after with
  | nil =>
    cases ran
    rw [unmarked] at marked
    cases marked
  | append_singleton tokens token inner =>
    rw [run_append] at ran
    cases reaches : run settings machine tokens with
    | error stopped =>
      rw [reaches] at ran
      cases ran
    | ok reached =>
      rw [reaches] at ran
      have stepped : step settings reached token = .ok after := (run_singleton token).symm.trans ran
      have before := inner reaches
      obtain ⟨stack, ⟨callable, isAssignment, applied⟩ | ⟨noCallable, already⟩⟩ :=
        marked_of_step (fun earlier => (before earlier).1) stepped marked
      · have isLast : ∀ other ∈ ([] : List Token), other.isCallable = false := nofun
        exact ⟨stack, reached, token, [], ⟨⟨tokens, rfl, reaches⟩, callable, applied, isLast⟩,
          isAssignment⟩
      · obtain ⟨-, first, assignment, later, appliesLast, isAssignment⟩ := before already
        exact ⟨stack, first, assignment, later ++ [token], appliesLast.append_operand noCallable,
          isAssignment⟩

theorem table_run_operands {tokens : List Token} {after : Machine}
    (operands : ∀ token ∈ tokens, token.isCallable = false)
    (ran : run settings machine tokens = .ok after) : after.table = machine.table := by
  induction tokens generalizing machine with
  | nil => rw [← Except.ok.inj ran]
  | cons token tokens inner =>
    have pushed : step settings machine token = .ok (machine.push token) := by
      simp [step, operands token List.mem_cons_self]
    rw [run_cons, pushed] at ran
    have kept := inner (fun other later => operands other (List.mem_cons_of_mem token later)) ran
    rw [kept, table_push]

/-- What the last applied token of a run leaves if it is an assignment: its value is stored, and on
top of the stack if nothing follows. -/
theorem AppliesLast.stores {tokens later : List Token} {reached after : Machine} {token : Token}
    (appliesLast : AppliesLast settings machine tokens reached token later)
    (isAssignment : token.text = assignmentText) (ran : run settings machine tokens = .ok after) :
    ∃ value, resolve reached.table (reached.taken token).2 = .ok value ∧
      (∀ target ∈ (reached.taken token).1, after.table.get? target.text = some value) ∧
      (later = [] → after.stack.head? = some (Token.ofResult value)) := by
  obtain ⟨before, whole, reaches⟩ := appliesLast.reaches
  rw [whole, run_append, reaches] at ran
  simp only [Except.bind, run_cons] at ran
  have assigned : step settings reached token =
      (reached.popped token).assign (reached.taken token).1 (reached.taken token).2 := by
    unfold step
    rw [if_pos appliesLast.callable]
    rcases apply_cases settings reached token with
      ⟨empty, noDraw, -⟩ | ⟨-, ⟨-, assigned⟩ | ⟨noAssignment, -⟩⟩
    · rcases appliesLast.applied with stack | draws
      · exact absurd empty stack
      · exact absurd draws noDraw
    · exact assigned
    · exact absurd isAssignment noAssignment
  rw [assigned] at ran
  cases next : (reached.popped token).assign (reached.taken token).1 (reached.taken token).2 with
  | error stopped =>
    rw [next] at ran
    cases ran
  | ok stored =>
    rw [next] at ran
    obtain ⟨value, resolved, stack, defined⟩ := assign_ok next
    refine ⟨value, resolved, ?_, ?_⟩
    · intro target isTarget
      rw [table_run_operands appliesLast.isLast ran]
      exact defined target isTarget
    · rintro rfl
      cases ran
      rw [stack, List.head?_cons]

end Machine

namespace Calculator

/-- A result is withheld only if the last applied token is an assignment. If it found a left operand,
the table afterwards has the value of its right operand, unrounded, under the text of the left one;
and if nothing follows it, that is the value that was rounded to the precision of results. -/
theorem withheld_only_after_assignment {calculator : Calculator} {random : RandomSource}
    {text : String} {report : Report} (evaluated : (calculator.evaluate random text).1 = .ok report)
    (withheld : report.definesVariable = true) :
    report.output = none ∧ ∃ reached token later,
      Machine.AppliesLast calculator.settings (Machine.start calculator.table random)
        (toPostfix (tokenize text)) reached token later ∧
      token.text = assignmentText ∧
      ∃ value, Machine.resolve reached.table (reached.taken token).2 = .ok value ∧
        (∀ target ∈ (reached.taken token).1,
          (calculator.evaluate random text).2.1.table.get? target.text = some value) ∧
        (later = [] → calculator.settings.resultPrecision.round value = .ok report.value) := by
  refine ⟨Option.isNone_iff_eq_none.1 withheld, ?_⟩
  obtain ⟨after, number, returned, ran, resolved, rounded, rfl, left⟩ :=
    exists_of_evaluate evaluated
  rw [definesVariable_report] at withheld
  obtain ⟨-, reached, token, later, appliesLast, isAssignment⟩ :=
    Machine.exists_appliesLast rfl ran withheld
  obtain ⟨value, source, stored, top⟩ := appliesLast.stores isAssignment ran
  refine ⟨reached, token, later, appliesLast, isAssignment, value, source, ?_, ?_⟩
  · intro target isTarget
    rw [left]
    exact stored target isTarget
  · intro nothing
    rw [top nothing] at resolved
    obtain rfl := Except.ok.inj resolved
    exact rounded

/-- What is stored is not rounded, and what is returned is. -/
theorem withheld_only_after_assignment_of_quarter :
    let calculator : Calculator := { settings := ⟨.unset, .places 1, .bool false⟩ }
    let evaluated := calculator.evaluate (.cycling []) "x = 1.25"
    ∃ report, evaluated.1 = .ok report ∧ report.definesVariable = true ∧ report.value = 1.3 ∧
      ∃ value, evaluated.2.1.table.get? "x" = some value ∧
        calculator.settings.resultPrecision.round value = .ok report.value := by
  intro calculator evaluated
  have shown : evaluated.1.toOption.map (fun report => (report.definesVariable, report.value)) =
      some (true, 1.3) := by decide +kernel
  have order : toPostfix (tokenize "x = 1.25") =
      [⟨"x", .name, none⟩, .ofNumber "1.25" 1.25, ⟨assignmentText, .operator, none⟩] := by
    decide +kernel
  cases ended : evaluated.1 with
  | error failure =>
    rw [ended] at shown
    cases shown
  | ok report =>
    rw [ended] at shown
    obtain ⟨withheld, isValue⟩ := Prod.mk.inj (Option.some.inj shown)
    obtain ⟨-, reached, token, later, appliesLast, isAssignment, value, -, stored, rounded⟩ :=
      withheld_only_after_assignment ended withheld
    rw [order] at appliesLast
    obtain ⟨before, whole, ran⟩ := appliesLast.reaches
    have callable := appliesLast.callable
    rcases before with _ | ⟨first, _ | ⟨second, _ | ⟨third, others⟩⟩⟩
    · obtain ⟨rfl, -⟩ := List.cons.inj whole
      exact absurd callable (by decide)
    · obtain ⟨-, rest⟩ := List.cons.inj whole
      obtain ⟨rfl, -⟩ := List.cons.inj rest
      exact absurd callable (by decide)
    · simp only [List.cons_append, List.nil_append, List.cons.injEq] at whole
      obtain ⟨rfl, rfl, rfl, rfl⟩ := whole
      cases ran
      exact ⟨report, rfl, withheld, isValue, value, stored _ rfl, rounded rfl⟩
    · simp at whole

theorem exists_withheld {outcome : Except EvaluationFailure Report} {table : Variables}
    (shown : outcome.toOption.any (fun report =>
      report.definesVariable && table.entries.all (·.2 ≠ report.value)) = true) :
    ∃ report, outcome = .ok report ∧ report.definesVariable = true ∧
      ¬ ∃ key, table.get? key = some report.value := by
  cases outcome with
  | error failure => cases shown
  | ok report =>
    simp only [Except.toOption, Option.any_some, Bool.and_eq_true, List.all_eq_true] at shown
    refine ⟨report, rfl, shown.1, ?_⟩
    rintro ⟨key, kept⟩
    obtain ⟨before, later, whole, -⟩ := List.lookup_eq_some_iff.1 kept
    have member : (key, report.value) ∈ table.entries :=
      whole ▸ List.mem_append_right before List.mem_cons_self
    exact of_decide_eq_true (shown.2 (key, report.value) member) rfl

/-- An operand beside a definition is the value, and a definition of nothing has one all the same:
no key has the value that is withheld. -/
theorem withheld_without_key :
    (∃ report, (evaluate {} (.cycling []) "(x=5) 7").1 = .ok report ∧
      report.definesVariable = true ∧
      ¬ ∃ key, (evaluate {} (.cycling []) "(x=5) 7").2.1.table.get? key = some report.value) ∧
    ∃ report, (evaluate {} (.cycling []) "=5").1 = .ok report ∧
      report.definesVariable = true ∧
      ¬ ∃ key, (evaluate {} (.cycling []) "=5").2.1.table.get? key = some report.value := by
  constructor
  · exact exists_withheld (by decide +kernel)
  · exact exists_withheld (by decide +kernel)

end Calculator

end Reckoner
