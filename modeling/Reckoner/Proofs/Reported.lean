import Reckoner.Proofs.Completion
import Reckoner.Proofs.Incident

/-!
# Incidents and warnings

Every incident of an evaluation is reported, but for two kinds. The warnings about names are
collected at the end, so a name that has got a value by then counts as defined; and an argument that
is not a number is passed on like everywhere else.
-/

set_option autoImplicit false

namespace Reckoner

open Binary64

/-! ## What is reported at the end -/

namespace Incident

/-- The incidents that a table at the end of the evaluation does not make up for. -/
def Stands (table : Variables) : Incident → Prop
  | undefinedName name => table.contains name = false
  | outsideDomain argument => argument.isNaN = false
  | _ => True

/-- The line that reports an incident. -/
def message : Incident → String
  | undefinedName name => Warnings.tokenMessage name
  | unknownCharacter text => Warnings.tokenMessage text
  | zeroDivisor => "Warning: Division by zero"
  | outsideDomain _ => "Warning: Invalid value for trigonometric function"

end Incident

/-- An incident is reported: in the field for its kind, and by a line of its own. -/
structure Warnings.Reports (warnings : Warnings) (incident : Incident) : Prop where
  field : match incident with
    | .undefinedName name => name ∈ warnings.invalidTokens
    | .unknownCharacter text => text ∈ warnings.invalidTokens
    | .zeroDivisor => warnings.flags.divisionByZero = true
    | .outsideDomain _ => warnings.flags.trigonometricDomain = true
  message : incident.message ∈ warnings.messages
  inaccurate : warnings.inaccurate = true

namespace Warnings

variable {warnings : Warnings}

def lines (warnings : Warnings) : List String :=
  warnings.invalidTokens.map tokenMessage ++
    (if warnings.flags.divisionByZero then ["Warning: Division by zero"] else []) ++
    (if warnings.flags.trigonometricDomain then
      ["Warning: Invalid value for trigonometric function"] else [])

theorem lines_subset_messages (warnings : Warnings) : warnings.lines ⊆ warnings.messages := by
  have whole : warnings.messages =
      if warnings.lines.isEmpty then [] else warnings.lines ++ ["Result may be inaccurate"] := rfl
  intro line found
  rw [whole]
  split
  · rename_i empty
    rw [List.isEmpty_iff.1 empty] at found
    cases found
  · exact List.mem_append_left _ found

theorem inaccurate_iff : warnings.inaccurate = true ↔ warnings.invalidTokens ≠ [] ∨
    warnings.flags.divisionByZero = true ∨ warnings.flags.trigonometricDomain = true := by
  simp [inaccurate, count, Nat.pos_iff_ne_zero, or_iff_not_imp_left]

theorem reports_of_mem {text : String} (invalid : text ∈ warnings.invalidTokens) :
    warnings.Reports (.undefinedName text) ∧ warnings.Reports (.unknownCharacter text) := by
  have line : tokenMessage text ∈ warnings.messages :=
    warnings.lines_subset_messages
      (List.mem_append_left _ (List.mem_append_left _ (List.mem_map_of_mem invalid)))
  have inaccurate := inaccurate_iff.2 (.inl (List.ne_nil_of_mem invalid))
  exact ⟨⟨invalid, line, inaccurate⟩, ⟨invalid, line, inaccurate⟩⟩

theorem reports_zeroDivisor (flagged : warnings.flags.divisionByZero = true) :
    warnings.Reports .zeroDivisor :=
  ⟨flagged, warnings.lines_subset_messages (by simp [lines, flagged, Incident.message]),
    inaccurate_iff.2 (.inr (.inl flagged))⟩

theorem reports_outsideDomain (flagged : warnings.flags.trigonometricDomain = true)
    (argument : Float) : warnings.Reports (.outsideDomain argument) :=
  ⟨flagged, warnings.lines_subset_messages (by simp [lines, flagged, Incident.message]),
    inaccurate_iff.2 (.inr (.inr flagged))⟩

end Warnings

theorem Incident.Noted.reported {tokens : List Token} {flags : Flags} {table : Variables}
    {incident : Incident} (noted : incident.Noted tokens flags) (stands : incident.Stands table) :
    (Warnings.collect tokens table flags).Reports incident := by
  have invalid (token : Token) (member : token ∈ tokens) (isInvalid : token.isValid table = false) :
      token.text ∈ (Warnings.collect tokens table flags).invalidTokens :=
    List.mem_map_of_mem (List.mem_filter.2 ⟨member, by simp [isInvalid]⟩)
  cases incident with
  | undefinedName name =>
    obtain ⟨token, member, kind, rfl⟩ := noted
    have absent : table.contains token.text = false := stands
    exact (Warnings.reports_of_mem (invalid token member (by simp [Token.isValid, kind, absent]))).1
  | unknownCharacter text =>
    obtain ⟨token, member, kind, rfl⟩ := noted
    exact (Warnings.reports_of_mem (invalid token member (by simp [Token.isValid, kind]))).2
  | zeroDivisor => exact Warnings.reports_zeroDivisor noted
  | outsideDomain argument => exact Warnings.reports_outsideDomain (noted stands) argument

namespace Machine

theorem step_arcSine_notANumber {machine : Machine} {stack : List Token}
    (top : machine.stack = Token.ofResult notANumber :: stack) :
    ∃ number, step {} machine ⟨"asin", .function, none⟩ =
      .ok { machine with stack := Token.ofResult number :: stack, definesVariable := false } := by
  have known : Operation.ofText? "asin" = some .arcSine := by decide
  have inside : (notANumber < -one || one < notANumber) = false := by decide +kernel
  have applied : Operation.arcSine.apply false zero machine.flags zero notANumber =
      (notANumber.asin, machine.flags) := by
    simp [Operation.apply, Operation.isTrigonometric, Operation.isInverse, Operation.ofOne, inside]
  have resolved : operands {} machine.table none (some (Token.ofResult notANumber)) =
      .ok (zero, notANumber) := rfl
  have degrees : Settings.inDegrees {} = false := rfl
  refine ⟨notANumber.asin, ?_⟩
  rw [step_unary rfl rfl (by decide) top, operate]
  simp only [resolved, compute, known, reduceCtorEq, if_false, degrees, applied, Precision.round]
  exact congrArg Except.ok (push_ofResult _)

end Machine

namespace Calculator

/-- No warning is missed. Under workable settings every evaluation returns a report, and under all
settings a report tells of every incident that stands at the end: a name that has no value even
then, an unknown character, a zero divisor, and an argument outside the domain that is a number. -/
theorem incidents_reported (calculator : Calculator) (random : RandomSource) (text : String) :
    (calculator.settings.Workable → ∃ report, (calculator.evaluate random text).1 = .ok report) ∧
      ∀ report, (calculator.evaluate random text).1 = .ok report →
        ∀ incident ∈ calculator.incidents random text,
          incident.Stands (calculator.evaluate random text).2.1.table →
            report.warnings.Reports incident := by
  refine ⟨fun workable => exists_report workable random text, ?_⟩
  intro report returned incident met stands
  have started : (Machine.start calculator.table random).StackFrom (tokenize text) := nofun
  have inside : toPostfix (tokenize text) ⊆ tokenize text := fun _ => mem_of_mem_toPostfix
  unfold evaluate at returned stands
  simp only at returned stands
  cases evaluated : Machine.evaluate calculator.settings (.start calculator.table random)
      (convert text).2 with
  | error stopped =>
    rw [evaluated] at returned
    cases returned
  | ok finished =>
    obtain ⟨value, after⟩ := finished
    rw [evaluated] at returned stands
    have noted := Machine.noted_of_evaluate started inside evaluated incident met
    rw [← Except.ok.inj returned]
    exact noted.reported stands

theorem incidents_reported_of_four_kinds :
    (∃ report, (evaluate {} (.cycling []) "asin(2)+$/x").1 = .ok report) ∧
      ∀ report, (evaluate {} (.cycling []) "asin(2)+$/x").1 = .ok report →
        report.warnings.Reports (.outsideDomain Reckoner.two) ∧
          report.warnings.Reports (.unknownCharacter "$") ∧
          report.warnings.Reports (.undefinedName "x") ∧ report.warnings.Reports .zeroDivisor := by
  obtain ⟨returns, reported⟩ := incidents_reported {} (.cycling []) "asin(2)+$/x"
  refine ⟨returns ⟨trivial, trivial⟩, fun report returned => ?_⟩
  have reports := reported report returned
  exact ⟨reports _ (by decide +kernel) (show _ = false by decide +kernel),
    reports _ (by decide +kernel) trivial,
    reports _ (by decide +kernel) (show _ = false by decide +kernel),
    reports _ (by decide +kernel) trivial⟩

/-- The product of zero and infinity is not a number, and its arc sine comes without a warning. -/
theorem warnings_of_arcSine :
    ∃ report, (evaluate {} (.cycling []) "asin(0*1e999)").1 = .ok report ∧
      report.warnings = ⟨[], {}⟩ := by
  have reordered : (convert "asin(0*1e999)").2 =
      (convert "0*1e999").2 ++ [⟨"asin", .function, none⟩] := by decide +kernel
  have product : (Machine.run {} (.start .empty (.cycling [])) (convert "0*1e999").2).toOption.map
      (fun middle => (middle.stack, middle.table, middle.flags)) =
        some ([Token.ofResult notANumber], .empty, {}) := by decide +kernel
  have collected : Warnings.collect (convert "asin(0*1e999)").1 .empty {} = ⟨[], {}⟩ := by
    decide +kernel
  cases ran : Machine.run {} (.start .empty (.cycling [])) (convert "0*1e999").2 with
  | error stopped =>
    rw [ran] at product
    cases product
  | ok middle =>
    rw [ran] at product
    simp only [Except.toOption, Option.map_some, Option.some.injEq, Prod.mk.injEq] at product
    obtain ⟨stack, table, flags⟩ := product
    obtain ⟨number, stepped⟩ := Machine.step_arcSine_notANumber stack
    have evaluated : Machine.evaluate {} (.start .empty (.cycling [])) (convert "asin(0*1e999)").2 =
        .ok (number, { middle with stack := [], definesVariable := false }) := by
      rw [reordered, Machine.evaluate_eq, Machine.run_append]
      have started : { Machine.start .empty (.cycling []) with definesVariable := false } =
          Machine.start .empty (.cycling []) := rfl
      rw [started, ran]
      simp only [Except.bind, Machine.run_singleton, stepped]
      rfl
    have returned : (evaluate {} (.cycling []) "asin(0*1e999)").1 =
        .ok (report "asin(0*1e999)" number
          { middle with stack := [], definesVariable := false }) := by
      simp only [evaluate, evaluated]
    refine ⟨_, returned, ?_⟩
    simp only [report, table, flags]
    exact collected

/-- A name that gets its value too late, and an argument that is not a number, without a warning. -/
theorem incidents_without_warning :
    (.undefinedName "x" ∈ incidents {} (.cycling []) "(x+1)*(x=2)" ∧
        ∃ report, (evaluate {} (.cycling []) "(x+1)*(x=2)").1 = .ok report ∧
          report.warnings = ⟨[], {}⟩) ∧
      .outsideDomain notANumber ∈ incidents {} (.cycling []) "asin(0*1e999)" ∧
        ∃ report, (evaluate {} (.cycling []) "asin(0*1e999)").1 = .ok report ∧
          report.warnings = ⟨[], {}⟩ := by
  refine ⟨⟨by decide +kernel, ?_⟩, by decide +kernel, warnings_of_arcSine⟩
  have silent : (evaluate {} (.cycling []) "(x+1)*(x=2)").1.toOption.map Report.warnings =
      some ⟨[], {}⟩ := by decide +kernel
  cases returned : (evaluate {} (.cycling []) "(x+1)*(x=2)").1 with
  | error failure =>
    rw [returned] at silent
    cases silent
  | ok report =>
    rw [returned] at silent
    exact ⟨report, rfl, Option.some.inj silent⟩

end Calculator

end Reckoner
