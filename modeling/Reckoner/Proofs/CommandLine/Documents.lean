import Reckoner.Proofs.CommandLine.Modes
import Reckoner.Proofs.Completion
import Reckoner.Proofs.Json.Printed
import Reckoner.Proofs.Json.Report
import Reckoner.Proofs.Outcome

/-!
# Documents

If JSON is asked for, the output is one document for each expression, in their order. A document
reads back as the report on its expression, whatever characters are in the expression. It is valid
JSON if and only if the report shows a finite value or none: a NaN and the infinities are written by
names that RFC 8259 does not know.
-/

set_option autoImplicit false

namespace Reckoner

namespace Calculator

/-- The reports on expressions that are evaluated one after the other, up to the first evaluation
that is stopped. -/
def reports (calculator : Calculator) (random : RandomSource) : List String → List Report
  | [] => []
  | expression :: rest =>
    match calculator.evaluate random expression with
    | (.error _, _, _) => []
    | (.ok report, after, randomAfter) => report :: after.reports randomAfter rest

theorem expression_of_report {calculator : Calculator} {random : RandomSource} {text : String}
    {report : Report} (evaluated : (calculator.evaluate random text).1 = .ok report) :
    report.expression = text := by
  obtain ⟨after, number, value, -, -, -, rfl, -⟩ := exists_of_evaluate evaluated
  rfl

/-- Every report is on an expression in its place, and none is missing in front of it. -/
theorem expressions_of_reports (calculator : Calculator) (random : RandomSource)
    (expressions : List String) :
    (calculator.reports random expressions).map (·.expression) <+: expressions := by
  induction expressions generalizing calculator random with
  | nil => exact List.prefix_rfl
  | cons expression rest inner =>
    have named := @expression_of_report calculator random expression
    rw [reports]
    split
    · exact List.nil_prefix
    · rename_i report after randomAfter evaluated
      rw [evaluated] at named
      rw [List.map_cons, named rfl]
      exact (List.prefix_cons_inj expression).2 (inner after randomAfter)

/-- Under workable settings no report is missing. -/
theorem length_reports {calculator : Calculator} (workable : calculator.settings.Workable)
    (random : RandomSource) (expressions : List String) :
    (calculator.reports random expressions).length = expressions.length := by
  induction expressions generalizing calculator random with
  | nil => rfl
  | cons expression rest inner =>
    obtain ⟨report, isReport⟩ := exists_report workable random expression
    have settings := calculator.settings_use (.evaluate random expression)
    rw [reports]
    split
    · rename_i stopped
      rw [stopped] at isReport
      cases isReport
    · rename_i report after randomAfter evaluated
      rw [use, evaluated] at settings
      rw [List.length_cons, List.length_cons, inner (settings ▸ workable)]

end Calculator

namespace CommandLine

open Text

theorem unlines_cons (line : String) (lines : List String) :
    unlines (line :: lines) = unlines [line] ++ unlines lines := by
  simp [unlines]

/-- The document on an expression. -/
def document (report : Report) : String :=
  Json.text report.toJson

theorem output_evaluateAll {invocation : Invocation} (asked : invocation.json = true)
    (calculator : Calculator) (random : RandomSource) (expressions : List String) :
    (evaluateAll invocation calculator random expressions).output =
      unlines ((calculator.reports random expressions).map document) := by
  induction expressions generalizing calculator random with
  | nil => rfl
  | cons expression rest inner =>
    rw [evaluateAll, Calculator.reports]
    rcases calculator.evaluate random expression with ⟨failure | report, after, randomAfter⟩
    · rfl
    · have lines : answerLines invocation report = [document report] := by
        rw [answerLines, asked, if_pos rfl]
        rfl
      rw [List.map_cons, unlines_cons, ← inner, ← lines]

/-- A command line that asks for JSON and has expressions, wherever on it these stand. -/
theorem output_run {arguments : List String} {invocation : Invocation} {settings : Settings}
    (accepted : Request.ofTexts arguments = .ok (.evaluate invocation))
    (asked : invocation.json = true) (set : invocation.settings = .ok settings)
    (nonempty : invocation.expressions ≠ []) (input : String) (random : RandomSource) :
    (run arguments input random).output =
      unlines ((Calculator.reports { settings := settings } random invocation.expressions).map
        document) := by
  have filled : invocation.expressions.isEmpty = false := List.isEmpty_eq_false_iff.2 nonempty
  rw [run, accepted]
  simp only [runInvocation, set, filled, Bool.false_eq_true, if_false]
  exact output_evaluateAll asked _ random invocation.expressions

/-- If JSON is asked for, the output is the documents on the reports, each with a line break behind
it, for expressions behind options and for every command line that is read as they are. Every
document reads back as its report, and it is valid JSON if and only if the report shows no value but
a finite one. Under workable settings there is one for each expression, in their order. -/
theorem output_is_documents {options expressions : List String} {invocation : Invocation}
    {settings : Settings} (accepted : Request.ofTexts options = .ok (.evaluate invocation))
    (noExpression : invocation.expressions = []) (asked : invocation.json = true)
    (set : invocation.settings = .ok settings) (nonempty : expressions ≠ [])
    (noDash : ∀ text ∈ expressions, HasNoDash text) (input : String) (random : RandomSource) :
    ∃ reports, Calculator.reports { settings := settings } random expressions = reports ∧
      (∀ arguments, Request.ofTexts arguments = Request.ofTexts (options ++ expressions) →
        (run arguments input random).output = unlines (reports.map document)) ∧
      (∀ report ∈ reports, Json.read? (document report) = some report.toJson.ordered ∧
        (Json.IsStandardText (document report) ↔ report.ShowsFinite)) ∧
      reports.map (·.expression) <+: expressions ∧
      (settings.Workable → reports.map (·.expression) = expressions) := by
  have named := Calculator.expressions_of_reports { settings := settings } random expressions
  refine ⟨_, rfl, fun arguments same => ?_, fun report _ => ⟨?_, ?_⟩, named, fun workable => ?_⟩
  · rw [ofTexts_evaluate_append accepted noExpression noDash] at same
    exact output_run same asked set nonempty input random
  · exact Json.read?_text report.isRegular_toJson
  · rw [document, Json.isStandardText_text_iff report.isRegular_toJson, report.isFinite_toJson_iff]
  · have length := @Calculator.length_reports { settings := settings } workable random expressions
    exact named.eq_of_length (by rw [List.length_map, length])

/-- A variable, then a quotation mark and characters with one escape and with a pair of them, and
then an infinite value, with the options behind and in front. -/
theorem output_is_documents_of_variable :
    let options := ["--precision", "2", "--json"]
    let expressions := ["x = 4", "\"\u00e9😀 + x", "1e999"]
    let settings : Settings := ⟨.places 2, .unset, .bool false⟩
    ∃ first second third,
      Calculator.reports { settings := settings } (.cycling []) expressions =
        [first, second, third] ∧
      (run (options ++ expressions) "" (.cycling [])).output =
        unlines [document first, document second, document third] ∧
      (run (expressions ++ options) "" (.cycling [])).output =
        unlines [document first, document second, document third] ∧
      Json.read? (document second) = some second.toJson.ordered ∧
      second.expression = "\"\u00e9😀 + x" ∧ Json.IsStandardText (document second) ∧
      ¬ Json.IsStandardText (document third) := by
  intro options expressions settings
  have accepted : Request.ofTexts options = .ok (.evaluate { precision := some 2, json := true }) :=
    rfl
  have set : Invocation.settings { precision := some 2, json := true } = .ok settings := rfl
  have workable : settings.Workable := ⟨show Decimal.Workable 2 by decide, trivial⟩
  obtain ⟨reports, same, output, each, -, named⟩ := output_is_documents accepted rfl rfl set
    (List.cons_ne_nil _ _) (by decide +kernel : ∀ text ∈ expressions, HasNoDash text) ""
    (.cycling [])
  have behind : Request.ofTexts (expressions ++ options) = Request.ofTexts (options ++ expressions) :=
    rfl
  have shows : (Calculator.reports { settings := settings } (.cycling []) expressions).map
      (fun report => decide report.ShowsFinite) = [true, true, false] := by
    decide +kernel
  obtain ⟨first, _, rfl, -, named⟩ := List.map_eq_cons_iff.1 (named workable)
  obtain ⟨second, _, rfl, isSecond, named⟩ := List.map_eq_cons_iff.1 named
  obtain ⟨third, _, rfl, -, named⟩ := List.map_eq_cons_iff.1 named
  obtain rfl := List.map_eq_nil_iff.1 named
  rw [same] at shows
  simp only [List.map_cons, List.map_nil, List.cons.injEq, decide_eq_true_eq,
    decide_eq_false_iff_not, and_true] at shows
  have secondEach := each second (by simp)
  have thirdEach := each third (by simp)
  exact ⟨first, second, third, same, output _ rfl, output _ behind, secondEach.1, isSecond,
    secondEach.2.2 shows.2.1, fun standard => shows.2.2 (thirdEach.2.1 standard)⟩

/-- The one document on an infinite value is no valid JSON, and neither is any other text that the
output may be taken for. -/
theorem infinite_value_invalid :
    Request.ofTexts ["--json"] = .ok (.evaluate { json := true }) ∧ HasNoDash "1e999" ∧
      (run ["--json", "1e999"] "" (.cycling [])).failure = none ∧
      ¬ ∃ shown, (run ["--json", "1e999"] "" (.cycling [])).output = unlines [shown] ∧
        Json.IsStandardText shown := by
  have accepted : Request.ofTexts ["--json", "1e999"] =
      .ok (.evaluate { json := true, expressions := ["1e999"] }) := rfl
  have output := @output_run _ _ {} accepted rfl rfl (List.cons_ne_nil _ _) "" (.cycling [])
  have shows : (Calculator.reports {} (.cycling []) ["1e999"]).map
      (fun report => decide report.ShowsFinite) = [false] := by
    decide +kernel
  obtain ⟨report, isReport, infinite⟩ := List.map_eq_singleton_iff.1 shows
  refine ⟨rfl, by decide +kernel, by decide +kernel, ?_⟩
  rintro ⟨shown, same, standard⟩
  have single : document report = shown := by
    have joined : unlines [document report] = unlines [shown] := by
      rw [← same]
      exact (isReport ▸ output).symm
    simpa [unlines] using joined
  rw [← single, document, Json.isStandardText_text_iff report.isRegular_toJson,
    report.isFinite_toJson_iff] at standard
  exact of_decide_eq_false infinite standard

end CommandLine

end Reckoner
