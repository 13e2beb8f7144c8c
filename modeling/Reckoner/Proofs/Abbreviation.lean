import Reckoner.Proofs.Alike
import Reckoner.Proofs.Completion
import Reckoner.Proofs.Expression.Tokens
import Reckoner.Proofs.Plain
import Reckoner.Proofs.Variables

/-!
# Variables as abbreviations

After a variable has been defined by a plain expression, the variable in parentheses and the
expression in double parentheses can stand for one another in any text without assignments, whether
or not the text around them is well formed.

Both texts have the same tokens around the parentheses, and the parentheses are emitted as a whole at
the same place. On the machine they put two tokens on the stack that stand for the same number, and no
later step tells such machines apart.
-/

set_option autoImplicit false

namespace Reckoner

open Text

namespace VariableName

def definition (name : VariableName) (expression : String) : String :=
  name.text ++ "=(" ++ expression ++ ")"

variable (name : VariableName)

theorem tokenize_definition (expression : PlainExpression) :
    tokenize (name.definition expression.text) =
      [.name name.text] ++ .operator "=" ::
        (.leftParen :: tokenize expression.text ++ [.rightParen]) := by
  have stops : Stops ('=' :: ('(' :: expression.text.toList ++ [')'])) := stops_cons (by decide) _
  have first := name.readsBack none _ stops
  have whole : (name.definition expression.text).toList =
      (Token.name name.text).text.toList ++
        '=' :: ('(' :: expression.text.toList ++ [')']) := by
    simp [definition, Token.name]
  rw [Piece.tokenize_eq_read, whole, first, Piece.read_operator (by decide),
    Piece.read_group rfl expression.derived]
  simp [Piece.tokenize_eq_read]

theorem derives_definition (expression : PlainExpression) :
    Derives 1 (tokenize (name.definition expression.text))
      (.binary (.operator "=") (.leaf (.name name.text)) expression.tree) := by
  rw [tokenize_definition]
  have target : Derives 1 [Token.name name.text] (.leaf (.name name.text)) :=
    (Derives.operand rfl name.text_ne_empty).mono (by decide)
  exact .binary rfl rfl (by decide) (by decide) target (expression.derived.grouped.mono (by decide))

theorem tokenize_text : tokenize name.text = [.name name.text] := by
  have read := name.readsBack none [] stops_nil
  simpa [Piece.tokenize_eq_read, Token.name] using read

theorem derives : Derives 1 (tokenize name.text) (.leaf (.name name.text)) := by
  rw [tokenize_text]
  exact (Derives.operand rfl name.text_ne_empty).mono (by decide)

end VariableName

namespace Machine

variable {settings : Settings} {machine : Machine}

/-- A run of a definition that comes to its end gives the name the value of the tree. -/
theorem run_definition {tree : Tree} (plain : tree.IsPlain) (name : VariableName) {after : Machine}
    (ran : run settings machine ([.name name.text] ++ (tree.postorder ++ [.operator "="])) =
      .ok after) :
    ∃ number, tree.value settings machine.table = .ok number ∧
      after.table = machine.table.define name.text number := by
  have target : step settings machine (.name name.text) =
      .ok { machine with stack := .name name.text :: machine.stack } :=
    step_operand rfl name.text_ne_empty
  have pushed := @pushes_postorder settings
    { machine with stack := .name name.text :: machine.stack } tree plain
  rw [run_append, run_singleton, target] at ran
  simp only [Except.bind, run_append] at ran
  simp only at pushed
  cases valued : tree.value settings machine.table with
  | error error =>
    rw [valued] at pushed
    obtain ⟨stopped, failed, -⟩ := pushed
    rw [failed] at ran
    cases ran
  | ok number =>
    rw [valued] at pushed
    obtain ⟨token, flags, defines, put, resolved⟩ := pushed
    refine ⟨number, rfl, ?_⟩
    rw [put] at ran
    simp only [run_singleton] at ran
    rw [step_assignment rfl rfl rfl rfl] at ran
    simp only [assign] at ran
    simp only at resolved
    rw [resolved] at ran
    simp only [Except.ok.injEq] at ran
    rw [← ran, table_push]
    rfl

/-- Between the same tokens, trees of the same value are run alike. -/
theorem alikeRuns_between {tree other : Tree} (plain : tree.IsPlain) (otherPlain : other.IsPlain)
    {number : Float} (valued : tree.value settings machine.table = .ok number)
    (sameValue : other.value settings machine.table = .ok number) {first last : List Token}
    (noAssignment : ∀ token ∈ first ++ last, token.text ≠ assignmentText) :
    AlikeRuns (run settings machine (first ++ tree.postorder ++ last))
      (run settings machine (first ++ other.postorder ++ last)) := by
  rw [List.append_assoc, List.append_assoc, run_append, run_append]
  cases ran : run settings machine first with
  | error stopped => exact AlikeRuns.refl _
  | ok middle =>
    have table := table_run (fun token early => noAssignment token (List.mem_append_left _ early)) ran
    have pushed := @pushes_postorder settings middle tree plain
    have otherPushed := @pushes_postorder settings middle other otherPlain
    rw [table] at pushed otherPushed
    rw [valued] at pushed
    rw [sameValue] at otherPushed
    obtain ⟨token, flags, defines, put, resolved⟩ := pushed
    obtain ⟨otherToken, otherFlags, otherDefines, otherPut, otherResolved⟩ := otherPushed
    simp only [Except.bind, run_append, put, otherPut]
    have alike : Alike
        { middle with
          stack := token :: middle.stack, flags := flags, definesVariable := defines }
        { middle with
          stack := otherToken :: middle.stack
          flags := otherFlags
          definesVariable := otherDefines } := by
      refine ⟨rfl, rfl, ?_⟩
      simp only [numbers, List.map_cons, resolved, otherResolved]
    exact alike.run fun token late => noAssignment token (List.mem_append_right _ late)

end Machine

theorem VariableName.value_define_self (name : VariableName) (settings : Settings)
    (table : Variables) (number : Float) :
    (Tree.leaf (.name name.text)).value settings (table.define name.text number) = .ok number := by
  have looked : (table.define name.text number).lookup name.text = number :=
    Variables.lookup_define_self _ _ _
  rw [Tree.value]
  simp only [Machine.resolve, Token.name, if_true, looked]
  rfl

/-- A variable that does not occur in an expression has no part in its value. -/
theorem PlainExpression.value_define {name : VariableName} (expression : PlainExpression)
    (absent : ∀ token ∈ tokenize expression.text, token.kind = .name → token.text ≠ name.text)
    (settings : Settings) (table : Variables) (number : Float) :
    expression.tree.value settings (table.define name.text number) =
      expression.tree.value settings table := by
  apply Tree.value_congr
  intro token member
  have other := absent token (expression.derived.mem_of_mem_postorder member)
  simp only [Machine.resolve]
  split
  · rename_i isName
    rw [Variables.lookup_define_ne _ (other isName)]
  · rfl

namespace Calculator

/-- A definition that comes to its end has given the name the value of the expression. -/
theorem evaluate_definition {calculator : Calculator} {random : RandomSource}
    {name : VariableName} {expression : PlainExpression}
    (defined : (calculator.evaluate random (name.definition expression.text)).1.isOk = true) :
    ∃ number, expression.tree.value calculator.settings calculator.table = .ok number ∧
      (calculator.evaluate random (name.definition expression.text)).2.1 =
        { calculator with table := calculator.table.define name.text number } := by
  have order : (convert (name.definition expression.text)).2 =
      [.name name.text] ++ (expression.tree.postorder ++ [.operator "="]) := by
    rw [convert, (name.derives_definition expression).toPostfix_eq]
    simp [Tree.postorder]
  simp only [evaluate, order, Machine.evaluate_eq] at defined ⊢
  have started : { Machine.start calculator.table random with definesVariable := false } =
      Machine.start calculator.table random := rfl
  rw [started] at defined ⊢
  cases ran : Machine.run calculator.settings (Machine.start calculator.table random)
      ([.name name.text] ++ (expression.tree.postorder ++ [.operator "="])) with
  | error stopped =>
    rw [ran] at defined
    cases defined
  | ok after =>
    rw [ran] at defined
    obtain ⟨number, valued, table⟩ := Machine.run_definition expression.isPlain name ran
    refine ⟨number, valued, ?_⟩
    simp only [Except.bind] at defined ⊢
    cases finished : after.finish calculator.settings with
    | error stopped =>
      rw [finished] at defined
      cases defined
    | ok ended =>
      have kept := Machine.finish_frame finished
      simp only [kept, table]
      rfl

/-- A definition comes to its end under workable settings. After one that does, the variable in
parentheses and the expression in double parentheses can stand for one another: any text without
assignments around them has the same outcome. -/
theorem outcome_abbreviation (calculator : Calculator) (random : RandomSource)
    (name : VariableName) (expression : PlainExpression)
    (absent : ∀ token ∈ tokenize expression.text, token.kind = .name → token.text ≠ name.text) :
    let defined := calculator.evaluate random (name.definition expression.text)
    (calculator.settings.Workable → defined.1.isOk = true) ∧
      (defined.1.isOk = true → ∀ (source : RandomSource) (before after : String),
        '=' ∉ before.toList → '=' ∉ after.toList →
          defined.2.1.outcome source (before ++ "(" ++ name.text ++ ")" ++ after) =
            defined.2.1.outcome source (before ++ "((" ++ expression.text ++ "))" ++ after)) := by
  refine ⟨fun workable => ?_, fun defined source before after noneBefore noneAfter => ?_⟩
  · obtain ⟨report, returned⟩ := exists_report workable random (name.definition expression.text)
    simp only [returned]
    rfl
  · obtain ⟨number, valued, isSession⟩ := evaluate_definition defined
    simp only [isSession]
    generalize isTable : calculator.table.define name.text number = table
    have shortValue : (Tree.leaf (.name name.text)).value calculator.settings table = .ok number := by
      rw [← isTable]
      exact name.value_define_self calculator.settings calculator.table number
    have longValue : expression.tree.value calculator.settings table = .ok number := by
      rw [← valued, ← isTable]
      exact expression.value_define absent calculator.settings calculator.table number
    have doubled : before ++ "((" ++ expression.text ++ "))" ++ after =
        before ++ "(" ++ ("(" ++ expression.text ++ ")") ++ ")" ++ after := by
      apply String.toList_injective
      simp
    have inner : Derives 1 (tokenize ("(" ++ expression.text ++ ")")) expression.tree := by
      rw [expression.derived.tokenize_group]
      exact expression.derived.grouped.mono (by decide)
    have plainName : (Tree.leaf (.name name.text)).IsPlain :=
      .leaf rfl name.text_ne_empty fun table => ⟨_, rfl⟩
    obtain ⟨first, last, members, between⟩ := Derives.toPostfix_between (tokenize before)
      (Piece.read (some .rightParen) after.toList)
    have noAssignment : ∀ token ∈ first ++ last, token.text ≠ assignmentText := by
      intro token member isAssignment
      rcases List.mem_append.1 (members token member) with early | late
      · exact noneBefore (mem_of_assignment_mem_read token early isAssignment)
      · exact noneAfter (mem_of_assignment_mem_read token late isAssignment)
    rw [doubled, outcome_eq, outcome_eq, name.derives.tokenize_between, inner.tokenize_between,
      between _ _ name.derives.grouped, between _ _ inner.grouped, Machine.evaluate_eq,
      Machine.evaluate_eq]
    have alike := @Machine.alikeRuns_between calculator.settings (Machine.start table source) _ _
      plainName expression.isPlain number shortValue longValue first last noAssignment
    have same := @Machine.AlikeRuns.outcome calculator.settings _ _ alike
    have started : { Machine.start table source with definesVariable := false } =
        Machine.start table source := rfl
    simp only [started, same]

theorem derives_sum : Derives 1 (tokenize "y+1")
    (.binary (.operator "+") (.leaf (.name "y")) (.leaf (.ofNumber "1" Binary64.one))) := by
  have read : tokenize "y+1" =
      [.name "y"] ++ .operator "+" :: [.ofNumber "1" Binary64.one] := by
    decide +kernel
  have left : Derives 2 [Token.name "y"] (.leaf (.name "y")) :=
    (Derives.operand rfl (by decide)).mono (by decide)
  have right : Derives 3 [Token.ofNumber "1" Binary64.one] (.leaf (.ofNumber "1" Binary64.one)) :=
    (Derives.operand rfl (by decide)).mono (by decide)
  rw [read]
  exact (@Derives.binary 2 (.operator "+") _ _ _ _ rfl rfl (by decide) (by decide) left right).loosen

/-- The variable `x` after `x=(y+1)`, in a text that is not well formed. -/
theorem outcome_abbreviation_of_sum :
    let sum : PlainExpression := ⟨"y+1", _, derives_sum, by decide +kernel⟩
    let name : VariableName := ⟨"x", by decide, by decide⟩
    let defined := evaluate {} (.cycling []) (name.definition sum.text)
    (∀ token ∈ tokenize sum.text, token.kind = .name → token.text ≠ name.text) ∧
      defined.1.isOk = true ∧ '=' ∉ "2*".toList ∧ '=' ∉ "+(".toList ∧
      defined.2.1.outcome (.cycling []) ("2*" ++ "(" ++ name.text ++ ")" ++ "+(") =
        defined.2.1.outcome (.cycling []) ("2*" ++ "((" ++ sum.text ++ "))" ++ "+(") := by
  intro sum name defined
  have absent : ∀ token ∈ tokenize sum.text, token.kind = .name → token.text ≠ name.text := by
    decide +kernel
  have ended : defined.1.isOk = true :=
    (outcome_abbreviation {} (.cycling []) name sum absent).1 ⟨trivial, trivial⟩
  have none : '=' ∉ "2*".toList ∧ '=' ∉ "+(".toList := by
    decide
  exact ⟨absent, ended, none.1, none.2, (outcome_abbreviation {} (.cycling []) name sum absent).2
    ended (.cycling []) "2*" "+(" none.1 none.2⟩

end Calculator

end Reckoner
