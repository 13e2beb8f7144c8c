import Reckoner.Proofs.Abbreviation
import Reckoner.Proofs.Ending
import Reckoner.Proofs.OperandText
import Reckoner.Proofs.Parentheses

/-!
# The keys of a table

An assignment stores under the text of whatever operand stands on its left. So the keys of a table
are not names only: a numeral, a result in its written form, or an unknown character may be assigned
to as well, and nothing else may. Only what is stored under a name can be read back.

The invariant of a run is that all texts on the stack and all keys of the table are texts of
operands.
-/

set_option autoImplicit false

namespace Reckoner

namespace Machine

/-- All texts on the stack and all keys of the table are texts of operands. -/
structure KeepsOperands (machine : Machine) : Prop where
  stack : ∀ token ∈ machine.stack, OperandText token.text
  keys : ∀ key ∈ machine.table.names, OperandText key

namespace KeepsOperands

variable {machine : Machine}

theorem of_leads (keeps : machine.KeepsOperands) {token : Token} {after : Machine}
    (leads : Leads machine token after)
    (operand : token.isCallable = false → OperandText token.text) : after.KeepsOperands := by
  constructor
  · intro other member
    rcases leads.stack other member with before | ⟨rfl, noCallable⟩ | ⟨number, rfl⟩
    · exact keeps.stack other before
    · exact operand noCallable
    · exact Decimal.operandText_format number
  · intro key member
    rcases leads.table with same | ⟨target, isOperand, value, defined⟩
    · exact keeps.keys key (same ▸ member)
    · rw [defined, Variables.names_define] at member
      split at member
      · exact keeps.keys key member
      · rcases List.mem_append.1 member with before | same
        · exact keeps.keys key before
        · rw [List.mem_singleton.1 same]
          exact keeps.stack target isOperand

end KeepsOperands

end Machine

/-- What the evaluation of an operand gives: the value that it stands for, rounded as every result
is, and no warning. -/
def Settings.reading (settings : Settings) (key : String) (value : Float) :
    Except EvaluationFailure Report :=
  match settings.resultPrecision.round value with
  | .error error => .error (.places error)
  | .ok rounded =>
    .ok {
      expression := key
      value := rounded
      output := some (Decimal.format rounded)
      infixTexts := [key]
      postfixTexts := [key]
      warnings := ⟨[], {}⟩ }

namespace Calculator

theorem keys_evaluate {calculator : Calculator}
    (keys : ∀ key ∈ calculator.table.names, OperandText key) (random : RandomSource)
    (text : String) :
    ∀ key ∈ (calculator.evaluate random text).2.1.table.names, OperandText key := by
  have started : (Machine.start calculator.table random).KeepsOperands := ⟨nofun, keys⟩
  have operands : ∀ token ∈ toPostfix (tokenize text), token.isCallable = false →
      OperandText token.text := by
    intro token member noCallable
    have noParenthesis := isParenthesis_of_mem_postfix token member
    apply Token.operandText_of_mem_read token (mem_of_mem_toPostfix member)
    cases kind : token.kind with
    | number => simp [Token.isOperand, kind]
    | name => simp [Token.isOperand, kind]
    | unknown => simp [Token.isOperand, kind]
    | _ => simp [Token.isCallable, Token.isParenthesis, kind] at noCallable noParenthesis
  have ends : Machine.EndsWith Machine.KeepsOperands (Machine.run calculator.settings
      (Machine.start calculator.table random) (toPostfix (tokenize text))) :=
    Machine.endsWith_run
      (fun token member _ _ keeps leads => keeps.of_leads leads (operands token member)) started
  exact table_evaluate (fun table => ∀ key ∈ table.names, OperandText key)
    (ends.mono fun _ keeps => keeps.keys)

theorem keys_history {calculator : Calculator}
    (keys : ∀ key ∈ calculator.table.names, OperandText key) (uses : List Use) :
    ∀ key ∈ (calculator.history uses).table.names, OperandText key :=
  table_history (fun table => ∀ key ∈ table.names, OperandText key)
    (fun _ member => absurd member List.not_mem_nil) (fun _ before => keys_evaluate before) keys
    uses

/-- A text that is one operand, and not an unknown one, evaluates to what the operand stands for. -/
theorem evaluate_operand {calculator : Calculator} {token : Token} {value : Float}
    (whole : tokenize token.text = [token]) (nonempty : token.text.isEmpty = false)
    (isOperand : token.isOperand = true) (valid : token.isValid calculator.table = true)
    (resolved : Machine.resolve calculator.table (some token) = .ok value) (random : RandomSource) :
    calculator.evaluate random token.text =
      (calculator.settings.reading token.text value, calculator, random) := by
  have kind : token.kind = .number ∨ token.kind = .name ∨ token.kind = .unknown := by
    simpa [Token.isOperand, or_assoc] using isOperand
  have noCall : token.isCallable = false := by
    rcases kind with kind | kind | kind <;> simp [Token.isCallable, kind]
  have reordered : toPostfix [token] = [token] := by
    rcases kind with kind | kind | kind <;>
      simp [toPostfix, Conversion.run, Conversion.take, Conversion.emit, Conversion.finish,
        TokenSequence.add, kind, nonempty]
  have converted : convert token.text = ([token], [token]) := by
    rw [convert, whole, reordered]
  have pushed : Machine.step calculator.settings
      { Machine.start calculator.table random with definesVariable := false } token =
        .ok ⟨[token], calculator.table, {}, random, false⟩ :=
    Machine.step_operand noCall nonempty
  have collected : Warnings.collect [token] calculator.table {} = ⟨[], {}⟩ := by
    simp [Warnings.collect, valid]
  unfold evaluate report Settings.reading
  simp only [converted]
  rw [Machine.evaluate_eq, Machine.run_singleton, pushed]
  simp only [Except.bind, Machine.finish, List.head?_cons, resolved]
  cases calculator.settings.resultPrecision.round value with
  | error error => rfl
  | ok rounded =>
    simp only [collected]
    rfl

/-- A name that is in the table is read back: its evaluation gives what is stored under it. -/
theorem evaluate_name {calculator : Calculator} (name : VariableName) {value : Float}
    (kept : calculator.table.get? name.text = some value) (random : RandomSource) :
    calculator.evaluate random name.text =
      (calculator.settings.reading name.text value, calculator, random) := by
  have defined := Variables.contains_of_get? kept
  have valid : (Token.name name.text).isValid calculator.table = true := by
    simp [Token.isValid, Token.name, defined]
  have resolved : Machine.resolve calculator.table (some (.name name.text)) = .ok value := by
    simp [Machine.resolve, Token.name, Variables.lookup, kept]
  exact @evaluate_operand calculator (.name name.text) value name.tokenize_text
    name.text_ne_empty rfl valid resolved random

/-- Whatever was evaluated from an empty table on, every key is the text of an operand, and what is
stored under a name is read back by evaluating the key. -/
theorem keys_are_operands (settings : Settings) (uses : List Use) {key : String} {value : Float}
    (kept : (history { settings := settings } uses).table.get? key = some value) :
    OperandText key ∧ ∀ name : VariableName, name.text = key → ∀ random,
      (history { settings := settings } uses).evaluate random key =
        (settings.reading key value, history { settings := settings } uses, random) := by
  have empty : ∀ key ∈ (Variables.empty).names, OperandText key := nofun
  have keys := @keys_history { settings := settings } empty uses key
  constructor
  · apply keys
    rw [← Variables.contains_iff_mem_names]
    exact Variables.contains_of_get? kept
  · rintro name rfl random
    have sameSettings := settings_history { settings := settings } uses
    rw [evaluate_name name kept random, sameSettings]

/-- A result and an unknown character that were assigned to, and a name that reads back. -/
theorem keys_are_operands_of_half :
    let settings : Settings := ⟨.places 2, .unset, .bool false⟩
    let calculator := history { settings := settings }
      [.evaluate (.cycling []) "1+1=(half=1/2)", .evaluate (.cycling []) "3 $ = 5"]
    calculator.table.names = ["half", "2.000000000000000", "$"] ∧
      ∃ value, calculator.table.get? "half" = some value ∧ OperandText "half" ∧
        ∀ name : VariableName, name.text = "half" → ∀ random,
          calculator.evaluate random "half" =
            (settings.reading "half" value, calculator, random) := by
  intro settings calculator
  have defined : (calculator.table.get? "half").isSome = true := by decide +kernel
  obtain ⟨value, kept⟩ := Option.isSome_iff_exists.1 defined
  exact ⟨by decide +kernel, value, kept, keys_are_operands settings
    [.evaluate (.cycling []) "1+1=(half=1/2)", .evaluate (.cycling []) "3 $ = 5"] kept⟩

/-- A numeral that is assigned to becomes a key, which is no name and does not read back. -/
theorem key_of_numeral :
    let calculator := history {} [.evaluate (.cycling []) "2=3"]
    (¬ ∀ key ∈ calculator.table.names, ∃ name : VariableName, name.text = key) ∧
      (calculator.table.get? "2").map Decimal.format = some "3.000000000000000" ∧
      (calculator.evaluate (.cycling []) "2").1.toOption.bind Report.output =
        some "2.000000000000000" := by
  intro calculator
  refine ⟨?_, by decide +kernel, by decide +kernel⟩
  intro names
  obtain ⟨name, same⟩ := names "2" (by decide +kernel)
  have isWord := name.isWord
  rw [same] at isWord
  exact absurd isWord (by decide)

end Calculator

end Reckoner
