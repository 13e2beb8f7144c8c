import Reckoner.Proofs.Completion
import Reckoner.Proofs.Ending
import Reckoner.Proofs.Matching
import Reckoner.Proofs.Service.Posting
import Reckoner.Proofs.Service.Writing
import Reckoner.Proofs.Trimming

/-!
# What a calculator's past leaves behind

Between two uses a calculator keeps more than its variables: the warnings of the last use, and
whether it defined a variable, are still there. They are overwritten before they are read, so two
calculators with the same settings and variables cannot be told apart, whatever they went through.
-/

set_option autoImplicit false

namespace Reckoner

/-- A calculator between two uses, with the warnings that the last one left, and with whether it
defined a variable. -/
structure Context extends Calculator where
  flags : Flags := {}
  definesVariable : Bool := false

namespace Context

/-- The tokens of a text as they stand, and in postfix order. Nothing but the warnings is lost. -/
def convert (context : Context) (text : String) : (List Token × List Token) × Context :=
  (Calculator.convert text, { context with flags := {} })

/-- The texts of the tokens in postfix order. -/
def reorder (context : Context) (text : String) : List String × Context :=
  let (converted, after) := context.convert text
  (converted.2.map Token.text, after)

/-- The context after an evaluation on a machine. -/
def leave (context : Context) (machine : Machine) : Context :=
  { context with
    table := machine.table
    flags := machine.flags
    definesVariable := machine.definesVariable }

/-- An evaluation that starts from what the last use has left. -/
def evaluate (context : Context) (random : RandomSource) (text : String) :
    Except EvaluationFailure Report × Context × RandomSource :=
  let ((_, reordered), converted) := context.convert text
  let machine : Machine :=
    ⟨[], converted.table, converted.flags, random, converted.definesVariable⟩
  match machine.evaluate context.settings reordered with
  | .ok (value, after) =>
    (.ok (Calculator.report text value after), converted.leave after, after.random)
  | .error stopped =>
    (.error stopped.failure, converted.leave stopped.machine, stopped.machine.random)

/-- The context without its variables; the rest is still there. -/
def close (context : Context) : Context :=
  { context with table := .empty }

/-- What is done with a calculator. -/
inductive Act where
  | evaluate (random : RandomSource) (text : String)
  | convert (text : String)
  | reorder (text : String)
  | close

def act (context : Context) : Act → Context
  | .evaluate random text => (context.evaluate random text).2.1
  | .convert text => (context.convert text).2
  | .reorder text => (context.reorder text).2
  | .close => context.close

/-- The context after a past, the first act first. -/
def acts (context : Context) (past : List Act) : Context :=
  past.foldl act context

/-! ## Contexts and their calculators -/

/-- What the last use has left plays no part in an evaluation. -/
theorem evaluate_eq (context : Context) (random : RandomSource) (text : String) :
    ((context.evaluate random text).1, (context.evaluate random text).2.1.toCalculator,
      (context.evaluate random text).2.2) = context.toCalculator.evaluate random text := by
  have started : Machine.evaluate context.settings
      ⟨[], context.table, {}, random, context.definesVariable⟩ (Calculator.convert text).2 =
        Machine.evaluate context.settings (Machine.start context.table random)
          (Calculator.convert text).2 := rfl
  unfold evaluate Calculator.evaluate
  simp only [convert]
  rw [started]
  cases Machine.evaluate context.settings (Machine.start context.table random)
      (Calculator.convert text).2 with
  | error stopped => rfl
  | ok finished => rfl

/-- The use that an act makes of the calculator. -/
def Act.use : Act → Calculator.Use
  | evaluate random text => .evaluate random text
  | convert text | reorder text => .convert text
  | close => .close

theorem toCalculator_act (context : Context) (act : Act) :
    (context.act act).toCalculator = context.toCalculator.use act.use := by
  cases act with
  | evaluate random text => exact congrArg (·.2.1) (context.evaluate_eq random text)
  | convert text => rfl
  | reorder text => rfl
  | close => rfl

/-- A context has the calculator that the same uses make of its own. -/
theorem toCalculator_acts (context : Context) (past : List Act) :
    (context.acts past).toCalculator = context.toCalculator.history (past.map Act.use) := by
  unfold acts Calculator.history
  induction past generalizing context with
  | nil => rfl
  | cons act past inner =>
    rw [List.foldl_cons, List.map_cons, List.foldl_cons, inner, toCalculator_act]

end Context

namespace Calculator

/-! ## Tables that name no variable twice -/

theorem distinct_evaluate {calculator : Calculator} (distinct : calculator.table.names.Nodup)
    (random : RandomSource) (text : String) :
    (calculator.evaluate random text).2.1.table.names.Nodup := by
  have ends : Machine.EndsWith (fun after => after.table.names.Nodup)
      (Machine.run calculator.settings (Machine.start calculator.table random)
        (toPostfix (tokenize text))) := by
    refine Machine.endsWith_run ?_ distinct
    intro token _ machine after before leads
    rcases leads.table with same | ⟨target, -, value, defined⟩
    · exact same ▸ before
    · exact defined ▸ Variables.nodup_names_define before target.text value
  exact table_evaluate (fun table => table.names.Nodup) ends

theorem distinct_history {calculator : Calculator} (distinct : calculator.table.names.Nodup)
    (uses : List Use) : (calculator.history uses).table.names.Nodup :=
  table_history (fun table => table.names.Nodup) List.nodup_nil
    (fun _ before => distinct_evaluate before) distinct uses

/-- Calculators with the same settings and the same variables give the same outcome. -/
theorem evaluate_samePairs {first second : Calculator} (settings : first.settings = second.settings)
    (distinct : first.table.names.Nodup) (distinctOther : second.table.names.Nodup)
    (pairs : first.table.SamePairs second.table) {random other : RandomSource}
    (numbers : random.Matches other) (text : String) :
    (first.evaluate random text).1 = (second.evaluate other text).1 ∧
      (first.evaluate random text).2.1.table.SamePairs (second.evaluate other text).2.1.table ∧
      (first.evaluate random text).2.2.Matches (second.evaluate other text).2.2 := by
  have tables := (Variables.samePairs_iff_matches distinct distinctOther).1 pairs
  obtain ⟨outcome, tablesAfter, numbersAfter⟩ := evaluate_matches settings tables numbers text
  have pairsAfter := (Variables.samePairs_iff_matches (distinct_evaluate distinct random text)
    (distinct_evaluate distinctOther other text)).2 tablesAfter
  exact ⟨outcome, pairsAfter, numbersAfter⟩

end Calculator

namespace Context

theorem settings_acts (context : Context) (past : List Act) :
    (context.acts past).settings = context.settings := by
  have same := congrArg Calculator.settings (context.toCalculator_acts past)
  rwa [Calculator.settings_history] at same

theorem distinct_acts {context : Context} (distinct : context.table.names.Nodup) (past : List Act) :
    (context.acts past).table.names.Nodup := by
  have same := congrArg Calculator.table (context.toCalculator_acts past)
  rw [same]
  exact Calculator.distinct_history distinct _

end Context

/-! ## Texts that are converted -/

/-- The texts in a report are those of the expression. -/
theorem Calculator.texts_of_report {calculator : Calculator} {random : RandomSource} {text : String}
    {report : Report} (evaluated : (calculator.evaluate random text).1 = .ok report) :
    report.infixTexts = (convert text).1.map Token.text ∧
      report.postfixTexts = (convert text).2.map Token.text := by
  obtain ⟨after, number, value, -, -, -, rfl, -⟩ := exists_of_evaluate evaluated
  exact ⟨rfl, rfl⟩

namespace Service.Application

/-- The text of a payload that is an object with an expression and nothing else. -/
def loneExpression? : Json.Foreign → Option String
  | .object [(name, .string text)] => if name = "expression" then text.toString? else none
  | _ => none

theorem exists_of_loneExpression? {payload : Json.Foreign} {text : String}
    (found : loneExpression? payload = some text) :
    ∃ points : Text.CodePoints, points.toString? = some text ∧
      payload = .object [("expression", .string points)] := by
  unfold loneExpression? at found
  split at found
  · rename_i points
    split at found
    · rename_i isExpression
      exact ⟨points, found, by rw [isExpression]⟩
    · cases found
  · cases found

/-- A request that the service takes for one to put a text into postfix order: the text is neither
blank nor too long, and the configuration has its settings right. -/
structure IsAskedToReorder (application : Application) (request : Request) (text : String) :
    Prop where
  method : request.method = "POST"
  target : request.target = "/api/calculator/postfix"
  payload : (application.payload request).toOption.bind loneExpression? = some text
  notBlank : (Text.trim text).isEmpty = false
  length : (Text.trim text).length ≤ maxExpressionLength
  configured : ∃ settings, application.configuration.defaultSettings = .ok settings

/-- The texts that are answered are those of the text as it was sent, blanks around it included. -/
theorem handle_of_isAskedToReorder {application : Application} {request : Request} {text : String}
    (asked : application.IsAskedToReorder request text) :
    application.handle request =
      (.ok (.success 200 (.object
        [("expression", .string (Text.trim text)),
          ("infix", Json.strings ((Calculator.convert text).1.map Token.text)),
          ("postfix", Json.strings ((Calculator.convert text).2.map Token.text))])),
        application) := by
  obtain ⟨settings, configured⟩ := asked.configured
  have posts : request.PostsTo .postfixOrder := by
    refine ⟨asked.method, ?_⟩
    rw [asked.target]
    decide +kernel
  obtain ⟨points, isText, payload⟩ : ∃ points : Text.CodePoints, points.toString? = some text ∧
      application.payload request = .ok (.object [("expression", .string points)]) := by
    have found := asked.payload
    cases sent : application.payload request with
    | error refused =>
      rw [sent] at found
      cases found
    | ok value =>
      rw [sent] at found
      obtain ⟨points, isText, rfl⟩ := exists_of_loneExpression? found
      exact ⟨points, isText, rfl⟩
  have expression : readExpression (.string points) = .ok (Text.trim text) := by
    have nonempty : ¬ (Text.trim text).length < 1 := by
      intro short
      have empty := String.length_eq_zero_iff.1 (Nat.lt_one_iff.1 short)
      have notBlank := asked.notBlank
      rw [empty] at notBlank
      cases notBlank
    simp [readExpression, readBoundedText, readText, readCharacters, isText, nonempty,
      Nat.not_lt.2 asked.length, bind, Except.bind, pure, Except.pure]
  have read : application.readPayload request PostfixPayload.ofJson = .ok ⟨Text.trim text⟩ := by
    simp [readPayload, payload, PostfixPayload.ofJson, readObject, required, readMember, expression,
      Json.Members.get?, unknownMembers, bind, Except.bind, pure, Except.pure]
  have converted : Calculator.convert (Text.trim text) = Calculator.convert text := by
    simp only [Calculator.convert, tokenize_trim]
  have responded : application.respondAt request .postfixOrder =
      (.ok (.success 200 (.object
        [("expression", .string (Text.trim text)),
          ("infix", Json.strings ((Calculator.convert text).1.map Token.text)),
          ("postfix", Json.strings ((Calculator.convert text).2.map Token.text))])),
        application) := by
    simp [respondAt, withPayload, read, reorder, configured, converted, answer]
  rw [handle_of_postsTo posts, responded]
  simp only [Except.bind]
  rw [write_success (Nat.le_trans (levels_reordered_le _ _ _) (by decide))]
  rfl

end Service.Application

namespace Context

open Service (Application)

/-- Two calculators with the same settings have gone through two pasts, whatever these were, and
have the same variables. As long as the same random numbers are to come, a text has the same outcome
on both, that of the calculator without anything else that its past has left, and they have the same
variables afterwards. The texts in a report are those that a conversion of the text gives anywhere,
the service included, and a conversion changes no variable. -/
theorem past_shows_only_in_variables {first second : Context}
    (distinct : first.table.names.Nodup) (distinctOther : second.table.names.Nodup)
    (settings : first.settings = second.settings) (past otherPast : List Act)
    (pairs : (first.acts past).table.SamePairs (second.acts otherPast).table)
    {random other : RandomSource} (numbers : random.Matches other) (text : String) :
    let one := (first.acts past).evaluate random text
    let two := (second.acts otherPast).evaluate other text
    (one.1 = two.1 ∧ one.2.1.table.SamePairs two.2.1.table ∧ one.2.2.Matches two.2.2) ∧
      (one.1, one.2.1.toCalculator, one.2.2) =
        (first.toCalculator.history (past.map Act.use)).evaluate random text ∧
      (∀ report, one.1 = .ok report →
        report.infixTexts = (Calculator.convert text).1.map Token.text ∧
          report.postfixTexts = (Calculator.convert text).2.map Token.text ∧
          ∀ (application : Application) request, application.IsAskedToReorder request text →
            application.handle request =
              (.ok (.success 200 (.object
                [("expression", .string (Text.trim text)),
                  ("infix", Json.strings report.infixTexts),
                  ("postfix", Json.strings report.postfixTexts)])),
                application)) ∧
      ∀ context : Context,
        (context.convert text).1 = Calculator.convert text ∧
          (context.reorder text).1 = (Calculator.convert text).2.map Token.text ∧
          (context.convert text).2.table = context.table ∧
          (context.reorder text).2.table = context.table := by
  intro one two
  have left := (first.acts past).evaluate_eq random text
  have right := (second.acts otherPast).evaluate_eq other text
  have sameSettings : (first.acts past).settings = (second.acts otherPast).settings := by
    rw [settings_acts, settings_acts, settings]
  have same := Calculator.evaluate_samePairs sameSettings (distinct_acts distinct past)
    (distinct_acts distinctOther otherPast) pairs numbers text
  rw [← left, ← right] at same
  refine ⟨same, toCalculator_acts first past ▸ left, ?_, fun context => ⟨rfl, rfl, rfl, rfl⟩⟩
  intro report reported
  have evaluated := (congrArg Prod.fst left).symm.trans reported
  obtain ⟨infixTexts, postfixTexts⟩ := Calculator.texts_of_report evaluated
  refine ⟨infixTexts, postfixTexts, ?_⟩
  intro application request asked
  rw [infixTexts, postfixTexts]
  exact Service.Application.handle_of_isAskedToReorder asked

/-- One calculator has divided by zero last, in a definition. The other one was closed in between,
has the same variables in another order, and has left the domain of a function last. -/
theorem past_shows_only_in_variables_of_sum :
    let past : List Act := [.evaluate (.cycling []) "y=2", .evaluate (.cycling []) "x=y/0"]
    let otherPast : List Act := [.evaluate (.cycling []) "z=9", .close,
      .evaluate (.cycling []) "x=0", .evaluate (.cycling []) "y=2", .reorder ")(",
      .evaluate (.cycling []) "asin(y)"]
    let first : Context := {}
    let one := (first.acts past).evaluate ⟨fun _ => Binary64.one, 0⟩ " x+y*rand "
    let two := (first.acts otherPast).evaluate ⟨fun _ => Binary64.one, 3⟩ " x+y*rand "
    let application : Application := .start
      { site := .null, summary := .null, calculator := [],
        maxContentLength := Service.Configuration.defaultContentLength, testing := true }
      (.cycling [])
    let request : Service.Request := ⟨"POST", "/api/calculator/postfix",
      "\x7b\"expression\": \" x+y*rand \"\x7d", some "application/json"⟩
    (first.acts past).table.entries ≠ (first.acts otherPast).table.entries ∧
      (first.acts past).table.SamePairs (first.acts otherPast).table ∧
      (first.acts past).flags ≠ (first.acts otherPast).flags ∧
      (first.acts past).definesVariable ≠ (first.acts otherPast).definesVariable ∧
      application.IsAskedToReorder request " x+y*rand " ∧
      one.1 = two.1 ∧ one.2.1.table.SamePairs two.2.1.table ∧ one.2.2.Matches two.2.2 ∧
      ∃ report, one.1 = .ok report ∧
        application.handle request =
          (.ok (.success 200 (.object
            [("expression", .string "x+y*rand"), ("infix", Json.strings report.infixTexts),
              ("postfix", Json.strings report.postfixTexts)])),
            application) := by
  intro past otherPast first one two application request
  have table : (first.acts past).table =
      ⟨[("y", Binary64.ofInt 2), ("x", Binary64.zero)]⟩ := by decide +kernel
  have otherTable : (first.acts otherPast).table =
      ⟨[("x", Binary64.zero), ("y", Binary64.ofInt 2)]⟩ := by decide +kernel
  have pairs : (first.acts past).table.SamePairs (first.acts otherPast).table := by
    intro entry
    simp only [table, otherTable, List.mem_cons, List.not_mem_nil, or_false]
    exact or_comm
  have asked : application.IsAskedToReorder request " x+y*rand " :=
    ⟨rfl, rfl, by decide +kernel, by decide +kernel, by decide +kernel, _, rfl⟩
  obtain ⟨⟨outcome, pairsAfter, sources⟩, -, texts, -⟩ := @past_shows_only_in_variables first first
    List.nodup_nil List.nodup_nil rfl past otherPast pairs ⟨fun _ => Binary64.one, 0⟩
    ⟨fun _ => Binary64.one, 3⟩ (fun _ => rfl) " x+y*rand "
  refine ⟨by rw [table, otherTable]; decide +kernel, pairs, by decide +kernel, by decide +kernel,
    asked, outcome, pairsAfter, sources, ?_⟩
  have returned : one.1.isOk = true := by decide +kernel
  cases reported : one.1 with
  | error failure =>
    rw [reported] at returned
    cases returned
  | ok report =>
    exact ⟨report, rfl, (texts report reported).2.2 application request asked⟩

end Context

end Reckoner
