import Reckoner.CommandLine.Run

/-!
# Expressions as arguments and on lines

Expressions may stand behind the options on the command line or on the lines of the input, and it
makes no difference which. Behind options that the command line accepts on their own, every argument
that does not begin with a dash is read as an expression: no option is left that waits for a value,
and no expression has been read before.
-/

set_option autoImplicit false

namespace Reckoner

namespace Text

theorem splitAtMark_append (mark : Char) (front back : List Char) :
    splitAtMark mark (front ++ mark :: back) = splitAtMark mark front ++ splitAtMark mark back := by
  induction front with
  | nil => simp [splitAtMark]
  | cons c front inner =>
    rw [List.cons_append, splitAtMark, splitAtMark]
    split
    · rw [inner, List.cons_append]
    · rw [inner]
      cases parts : splitAtMark mark front with
      | nil => exact absurd parts (splitAtMark_ne_nil mark front)
      | cons first others => rfl

end Text

namespace CommandLine

open Text

/-! ## Options and expressions as arguments -/

/-- An argument that no option begins like. -/
def HasNoDash (text : String) : Prop :=
  text.toList.head? ≠ some '-'

instance (text : String) : Decidable (HasNoDash text) :=
  inferInstanceAs (Decidable (text.toList.head? ≠ some '-'))

theorem ofText_of_hasNoDash {text : String} (noDash : HasNoDash text) :
    Argument.ofText text = .ok (.expression text) := by
  unfold Argument.ofText
  split
  · rename_i second tail dashed
    simp [HasNoDash, dashed] at noDash
  · rfl

theorem ne_separatorText_of_hasNoDash {text : String} (noDash : HasNoDash text) :
    text ≠ separatorText := by
  rintro rfl
  exact absurd noDash (by decide)

theorem ofTexts_of_hasNoDash {expressions : List String}
    (noDash : ∀ text ∈ expressions, HasNoDash text) :
    Argument.ofTexts expressions = .ok (expressions.map .expression) := by
  induction expressions with
  | nil => rfl
  | cons text expressions inner =>
    have first := noDash text List.mem_cons_self
    have others := inner fun other member => noDash other (List.mem_cons_of_mem text member)
    rw [Argument.ofTexts, if_neg (ne_separatorText_of_hasNoDash first), ofText_of_hasNoDash first,
      others]
    rfl

/-- Arguments in which nothing but expressions stands behind the end of the switches. -/
def EndsSwitches : List Argument → Prop
  | [] => True
  | .separator :: rest => ∃ texts : List String, rest = texts.map .expression
  | _ :: rest => EndsSwitches rest

theorem unspelt_ne_separator (text : String) : unspelt text ≠ .separator := by
  unfold unspelt
  split
  · exact nofun
  · exact nofun

theorem ofDashed_ne_separator (text : String) (second : Char) (tail : List Char) :
    ofDashed text second tail ≠ .ok .separator := by
  have spelt := unspelt_ne_separator text
  unfold ofDashed
  rcases splitValue text.toList with ⟨name, attached⟩
  simp only
  split
  · exact nofun
  · split
    · exact nofun
    · exact nofun
  · split
    · split
      · simpa using spelt
      · exact nofun
      · exact nofun
    · split
      · exact nofun
      · simpa using spelt

/-- Only the text of two dashes is told to be the end of the switches. -/
theorem ofText_ne_separator (text : String) : Argument.ofText text ≠ .ok .separator := by
  unfold Argument.ofText
  split
  · exact ofDashed_ne_separator text _ _
  · exact nofun

theorem endsSwitches_ofTexts {texts : List String} {arguments : List Argument}
    (told : Argument.ofTexts texts = .ok arguments) : EndsSwitches arguments := by
  induction texts generalizing arguments with
  | nil =>
    cases told
    trivial
  | cons text texts inner =>
    rw [Argument.ofTexts] at told
    split at told
    · cases told
      exact ⟨texts, rfl⟩
    · cases first : Argument.ofText text with
      | error error =>
        rw [first] at told
        cases told
      | ok argument =>
        cases others : Argument.ofTexts texts with
        | error error =>
          rw [first, others] at told
          cases told
        | ok rest =>
          rw [first, others] at told
          cases told
          have ends := inner others
          cases argument with
          | separator => exact absurd first (ofText_ne_separator text)
          | expression text => exact ends
          | switch switch attached => exact ends
          | helpWith attached => exact ends
          | unknown text => exact ends

/-- Expressions behind options are told apart as expressions. -/
theorem ofTexts_append {options expressions : List String} {arguments : List Argument}
    (told : Argument.ofTexts options = .ok arguments)
    (noDash : ∀ text ∈ expressions, HasNoDash text) :
    Argument.ofTexts (options ++ expressions) = .ok (arguments ++ expressions.map .expression) := by
  induction options generalizing arguments with
  | nil =>
    cases told
    exact ofTexts_of_hasNoDash noDash
  | cons text options inner =>
    rw [Argument.ofTexts] at told
    rw [List.cons_append, Argument.ofTexts]
    split at told
    · cases told
      rename_i isSeparator
      rw [if_pos isSeparator]
      simp
      rfl
    · rename_i noSeparator
      rw [if_neg noSeparator]
      cases first : Argument.ofText text with
      | error error =>
        rw [first] at told
        cases told
      | ok argument =>
        cases others : Argument.ofTexts options with
        | error error =>
          rw [first, others] at told
          cases told
        | ok rest =>
          rw [first, others] at told
          cases told
          rw [inner others]
          rfl

/-! ## Readings that come to their end -/

/-- Arguments are read from one reading to another: none of them asks for help or is refused, and
none waits for a value. -/
inductive Reads : Reading → List Argument → Reading → Prop where
  | done (reading : Reading) : Reads reading [] reading
  | separator {reading after : Reading} {rest : List Argument}
    (reads : Reads reading.separate rest after) : Reads reading (.separator :: rest) after
  | expression {reading after : Reading} {rest : List Argument} (text : String)
    (reads : Reads (reading.accept text) rest after) : Reads reading (.expression text :: rest) after
  | unknown {reading after : Reading} {rest : List Argument} (text : String)
    (reads : Reads (reading.passed.reject text) rest after) :
    Reads reading (.unknown text :: rest) after
  | attached {reading after : Reading} {rest : List Argument} {switch : Switch} {value : String}
    {invocation : Invocation} (takes : switch.takesValue = true)
    (set : reading.invocation.setValue switch value = .ok invocation)
    (reads : Reads { reading.passed with invocation := invocation } rest after) :
    Reads reading (.switch switch (some value) :: rest) after
  | valued {reading after : Reading} {rest : List Argument} {switch : Switch} {value : String}
    {invocation : Invocation} (takes : switch.takesValue = true)
    (set : reading.invocation.setValue switch value = .ok invocation)
    (reads : Reads { reading.passed with invocation := invocation } rest after) :
    Reads reading (.switch switch none :: .expression value :: rest) after
  | turned {reading after : Reading} {rest : List Argument} {switch : Switch}
    (noHelp : switch ≠ .help) (takes : switch.takesValue = false)
    (reads : Reads { reading.passed with invocation := reading.invocation.turnOn switch } rest
      after) :
    Reads reading (.switch switch none :: rest) after

theorem ne_help_of_takesValue {switch : Switch} (takes : switch.takesValue = true) :
    switch ≠ .help := by
  rintro rfl
  cases takes

theorem readArguments_turnOn (reading : Reading) {switch : Switch} (noHelp : switch ≠ .help)
    (takes : switch.takesValue = false) (rest : List Argument) :
    readArguments reading (.switch switch none :: rest) =
      readArguments { reading.passed with invocation := reading.invocation.turnOn switch } rest := by
  rw [readArguments.eq_def]
  simp only [noHelp, takes, Bool.false_eq_true, if_false]

/-- A command line that is accepted is read to its end, where everything on it has found its place,
or up to an argument that asks for help, behind which nothing counts. -/
theorem reads_of_accepted {reading : Reading} {arguments : List Argument} {request : Request}
    (accepted : readArguments reading arguments = .ok request) :
    ∃ front back after, arguments = front ++ back ∧ Reads reading front after ∧
      (back = [] ∧ after.unrecognized = [] ∧ request = .evaluate after.invocation ∨
        request = .help ∧ ∀ more, readArguments after (back ++ more) = .ok .help) := by
  induction reading, arguments using readArguments.induct with
  | case1 reading nothing =>
    rw [readArguments, if_pos nothing] at accepted
    cases accepted
    exact ⟨[], [], reading, rfl, .done reading, .inl ⟨rfl, List.isEmpty_iff.1 nothing, rfl⟩⟩
  | case2 reading something =>
    rw [readArguments, if_neg something] at accepted
    cases accepted
  | case3 reading rest inner =>
    rw [readArguments] at accepted
    obtain ⟨front, back, after, rfl, reads, facts⟩ := inner accepted
    exact ⟨_, back, after, rfl, .separator reads, facts⟩
  | case4 reading text rest inner =>
    rw [readArguments] at accepted
    obtain ⟨front, back, after, rfl, reads, facts⟩ := inner accepted
    exact ⟨_, back, after, rfl, .expression text reads, facts⟩
  | case5 reading text rest inner =>
    rw [readArguments] at accepted
    obtain ⟨front, back, after, rfl, reads, facts⟩ := inner accepted
    exact ⟨_, back, after, rfl, .unknown text reads, facts⟩
  | case6 reading attached tail ignored found =>
    simp only [readArguments, found] at accepted
    cases accepted
  | case7 reading attached tail found =>
    simp only [readArguments, found] at accepted
    cases accepted
    refine ⟨[], _, reading, rfl, .done reading, .inr ⟨rfl, fun more => ?_⟩⟩
    simp only [List.cons_append, readArguments, found]
  | case8 reading switch value rest takes error refused =>
    simp only [readArguments, takes, refused, if_true] at accepted
    cases accepted
  | case9 reading switch value rest takes set isSet inner =>
    simp only [readArguments, takes, isSet, if_true] at accepted
    obtain ⟨front, back, after, rfl, reads, facts⟩ := inner accepted
    exact ⟨_, back, after, rfl, .attached takes isSet reads, facts⟩
  | case10 reading switch value rest takes =>
    rw [readArguments, if_neg takes] at accepted
    cases accepted
  | case11 reading rest =>
    unfold readArguments at accepted
    cases accepted
    refine ⟨[], _, reading, rfl, .done reading, .inr ⟨rfl, fun more => ?_⟩⟩
    rw [List.cons_append, readArguments.eq_def]
    rfl
  | case12 reading switch noHelp takes value others error refused =>
    simp only [readArguments, noHelp, takes, refused, if_true, if_false] at accepted
    cases accepted
  | case13 reading switch noHelp takes value others set isSet inner =>
    simp only [readArguments, noHelp, takes, isSet, if_true, if_false] at accepted
    obtain ⟨front, back, after, rfl, reads, facts⟩ := inner accepted
    exact ⟨_, back, after, rfl, .valued takes isSet reads, facts⟩
  | case14 reading switch rest noHelp takes noValue =>
    rw [readArguments, if_neg noHelp, if_pos takes] at accepted
    · cases accepted
    · exact noValue
  | case15 reading switch rest noHelp takes inner =>
    have turns := Bool.eq_false_iff.2 takes
    rw [readArguments_turnOn reading noHelp turns] at accepted
    obtain ⟨front, back, after, rfl, reads, facts⟩ := inner accepted
    exact ⟨_, back, after, rfl, .turned noHelp turns reads, facts⟩

/-! ## What a reading keeps -/

theorem expressions_turnOn (invocation : Invocation) (switch : Switch) :
    (invocation.turnOn switch).expressions = invocation.expressions := by
  cases switch <;> rfl

theorem expressions_setValue {invocation after : Invocation} {switch : Switch} {value : String}
    (set : invocation.setValue switch value = .ok after) :
    after.expressions = invocation.expressions := by
  unfold Invocation.setValue at set
  cases number : Invocation.readValue switch value with
  | error error =>
    rw [number] at set
    cases set
  | ok found =>
    rw [number] at set
    cases set
    cases switch <;> rfl

theorem passed_invocation (reading : Reading) : reading.passed.invocation = reading.invocation := by
  unfold Reading.passed
  split
  · rfl
  · rfl

theorem passed_unrecognized (reading : Reading) :
    reading.passed.unrecognized = reading.unrecognized := by
  unfold Reading.passed
  split
  · rfl
  · rfl

theorem passed_stage {reading : Reading} (before : reading.stage = .before) :
    reading.passed.stage = .before := by
  simp [Reading.passed, before]

namespace Reads

variable {reading after : Reading} {arguments : List Argument}

theorem readArguments_append (reads : Reads reading arguments after) (more : List Argument) :
    readArguments reading (arguments ++ more) = readArguments after more := by
  induction reads with
  | done reading => rfl
  | separator _ inner => rw [List.cons_append, readArguments, inner]
  | expression text _ inner => rw [List.cons_append, readArguments, inner]
  | unknown text _ inner => rw [List.cons_append, readArguments, inner]
  | attached takes set _ inner =>
    simp only [List.cons_append, readArguments, takes, set, if_true]
    exact inner
  | valued takes set _ inner =>
    simp only [List.cons_append, readArguments, ne_help_of_takesValue takes, takes, set, if_true,
      if_false]
    exact inner
  | turned noHelp takes _ inner =>
    rw [List.cons_append, readArguments_turnOn _ noHelp takes]
    exact inner

/-- What has been rejected stays rejected, and an expression that has been read is not lost. -/
theorem keeps (reads : Reads reading arguments after) :
    reading.unrecognized <+: after.unrecognized ∧
      reading.invocation.expressions <+: after.invocation.expressions := by
  induction reads with
  | done reading => exact ⟨List.prefix_rfl, List.prefix_rfl⟩
  | @separator reading after rest _ inner =>
    unfold Reading.separate at inner
    split at inner
    · exact ⟨(List.prefix_append _ _).trans inner.1, inner.2⟩
    · exact inner
  | @expression reading after rest text _ inner =>
    unfold Reading.accept at inner
    split at inner
    · exact ⟨(List.prefix_append _ _).trans inner.1, inner.2⟩
    · exact ⟨inner.1, (List.prefix_append _ _).trans inner.2⟩
  | @unknown reading after rest text _ inner =>
    have rejected : reading.unrecognized <+: (reading.passed.reject text).unrecognized := by
      rw [← passed_unrecognized reading]
      exact List.prefix_append _ _
    have same : (reading.passed.reject text).invocation = reading.invocation :=
      passed_invocation reading
    rw [same] at inner
    exact ⟨rejected.trans inner.1, inner.2⟩
  | attached _ set _ inner =>
    simp only [passed_unrecognized, expressions_setValue set] at inner
    exact inner
  | valued _ set _ inner =>
    simp only [passed_unrecognized, expressions_setValue set] at inner
    exact inner
  | turned _ _ _ inner =>
    simp only [passed_unrecognized, expressions_turnOn] at inner
    exact inner

/-- A reading that has found no expression and rejected nothing can still take some. -/
theorem stage_ne_after (reads : Reads reading arguments after) (ends : EndsSwitches arguments)
    (before : reading.stage = .before) (noExpression : after.invocation.expressions = [])
    (nothing : after.unrecognized = []) : after.stage ≠ .after := by
  induction reads with
  | done reading => simp [before]
  | @separator reading after rest inside inner =>
    obtain ⟨texts, rfl⟩ := ends
    have separated : reading.separate.stage = .among := by
      simp [Reading.separate, before]
    cases texts with
    | nil =>
      cases inside
      simp [separated]
    | cons text texts =>
      cases inside with
      | expression text inside =>
        have kept := inside.keeps.2
        rw [noExpression, List.prefix_nil] at kept
        simp [Reading.accept, separated] at kept
  | @expression reading after rest text inside inner =>
    have kept := inside.keeps.2
    rw [noExpression, List.prefix_nil] at kept
    simp [Reading.accept, before] at kept
  | @unknown reading after rest text inside inner =>
    have kept := inside.keeps.1
    rw [nothing, List.prefix_nil] at kept
    simp [Reading.reject] at kept
  | attached _ _ _ inner => exact inner ends (passed_stage before) noExpression nothing
  | valued _ _ _ inner => exact inner ends (passed_stage before) noExpression nothing
  | turned _ _ _ inner => exact inner ends (passed_stage before) noExpression nothing

end Reads

theorem readArguments_expressions {reading : Reading} (nothing : reading.unrecognized = [])
    (ready : reading.stage ≠ .after) (texts : List String) :
    readArguments reading (texts.map .expression) =
      .ok (.evaluate { reading.invocation with
        expressions := reading.invocation.expressions ++ texts }) := by
  induction texts generalizing reading with
  | nil => simp [readArguments, nothing]
  | cons text texts inner =>
    have accepted : reading.accept text =
        { reading with
          stage := .among
          invocation :=
            { reading.invocation with
              expressions := reading.invocation.expressions ++ [text] } } := if_neg ready
    have later := @inner (reading.accept text) (by rw [accepted]; exact nothing)
      (by rw [accepted]; exact fun equal => nomatch equal)
    rw [List.map_cons, readArguments, later, accepted]
    simp

/-! ## Options -/

/-- Options that the command line accepts on their own: they ask for help, or for an evaluation
without an expression. -/
def AreOptions (options : List String) : Prop :=
  Request.ofTexts options = .ok .help ∨
    ∃ invocation, Request.ofTexts options = .ok (.evaluate invocation) ∧ invocation.expressions = []

theorem exists_of_ofTexts {texts : List String} {request : Request}
    (accepted : Request.ofTexts texts = .ok request) :
    ∃ arguments, Argument.ofTexts texts = .ok arguments ∧
      readArguments {} arguments = .ok request := by
  unfold Request.ofTexts at accepted
  cases told : Argument.ofTexts texts with
  | error error =>
    rw [told] at accepted
    cases accepted
  | ok arguments =>
    rw [told] at accepted
    exact ⟨arguments, rfl, accepted⟩

variable {options expressions : List String}

theorem ofTexts_help_append (asked : Request.ofTexts options = .ok .help)
    (noDash : ∀ text ∈ expressions, HasNoDash text) :
    Request.ofTexts (options ++ expressions) = .ok .help := by
  obtain ⟨arguments, told, read⟩ := exists_of_ofTexts asked
  obtain ⟨front, back, after, rfl, reads, ⟨-, -, other⟩ | ⟨-, helps⟩⟩ := reads_of_accepted read
  · cases other
  · rw [Request.ofTexts, ofTexts_append told noDash]
    show readArguments {} (front ++ back ++ expressions.map .expression) = .ok .help
    rw [List.append_assoc, reads.readArguments_append, helps]

/-- Expressions behind options are those of the invocation that the options make. -/
theorem ofTexts_evaluate_append {invocation : Invocation}
    (accepted : Request.ofTexts options = .ok (.evaluate invocation))
    (noExpression : invocation.expressions = [])
    (noDash : ∀ text ∈ expressions, HasNoDash text) :
    Request.ofTexts (options ++ expressions) =
      .ok (.evaluate { invocation with expressions := expressions }) := by
  obtain ⟨arguments, told, read⟩ := exists_of_ofTexts accepted
  have ends := endsSwitches_ofTexts told
  obtain ⟨front, back, after, rfl, reads, ⟨rfl, nothing, same⟩ | ⟨other, -⟩⟩ :=
    reads_of_accepted read
  · rw [List.append_nil] at told ends
    obtain rfl := Request.evaluate.inj same
    have ready := reads.stage_ne_after ends rfl noExpression nothing
    rw [Request.ofTexts, ofTexts_append told noDash]
    show readArguments {} (front ++ expressions.map .expression) = _
    rw [reads.readArguments_append, readArguments_expressions nothing ready, noExpression,
      List.nil_append]
  · cases other

/-! ## Expressions on lines -/

/-- The lines of an input without the blanks around them. -/
def strippedLines (input : String) : List String :=
  (splitAtMark '\n' input.toList).map fun line => strip (String.ofList line)

/-- The lines in front of the first one that says to stop, but for the blank ones. -/
def linesBeforeStop (input : String) : List String :=
  ((strippedLines input).takeWhile fun line => !isStop line).filter fun line => !line.isEmpty

/-- Blank lines do not say to stop, so it does not matter when they are left out. -/
theorem expressionsOfInput_eq (input : String) : expressionsOfInput input = linesBeforeStop input := by
  have same : (fun line : String => !!line.isEmpty || !isStop line) = fun line => !isStop line := by
    funext line
    by_cases blank : line = ""
    · subst blank
      decide
    · simp [blank]
  unfold expressionsOfInput linesBeforeStop strippedLines
  rw [List.takeWhile_filter, same]

theorem linesBeforeStop_append {input : String}
    (stops : ∃ line ∈ strippedLines input, isStop line = true) (more : String) :
    linesBeforeStop (input ++ "\n" ++ more) = linesBeforeStop input := by
  have lines : strippedLines (input ++ "\n" ++ more) =
      strippedLines input ++ strippedLines more := by
    have whole : (input ++ "\n" ++ more).toList = input.toList ++ '\n' :: more.toList := by
      simp
    rw [strippedLines, whole, splitAtMark_append, List.map_append]
    rfl
  obtain ⟨line, inside, stop⟩ := stops
  have shorter : ((strippedLines input).takeWhile fun line => !isStop line).length ≠
      (strippedLines input).length := by
    intro equal
    have all := (List.takeWhile_prefix _).eq_of_length equal
    rw [← all] at inside
    have noStop := List.all_eq_true.1 List.all_takeWhile line inside
    simp [stop] at noStop
  rw [linesBeforeStop, lines, List.takeWhile_append, if_neg shorter]
  rfl

/-! ## Both modes -/

/-- The expressions of an invocation have no part in how they are answered. -/
theorem evaluateAll_withExpressions (invocation : Invocation) (texts : List String)
    (calculator : Calculator) (random : RandomSource) (expressions : List String) :
    evaluateAll { invocation with expressions := texts } calculator random expressions =
      evaluateAll invocation calculator random expressions := by
  induction expressions generalizing calculator random with
  | nil => rfl
  | cons expression expressions inner =>
    simp only [evaluateAll, inner]
    rfl

theorem runInvocation_withExpressions {invocation : Invocation}
    (noExpression : invocation.expressions = []) {input : String}
    (some : linesBeforeStop input ≠ []) (other : String) (random : RandomSource) :
    runInvocation { invocation with expressions := linesBeforeStop input } other random =
      runInvocation invocation input random := by
  have filled : (linesBeforeStop input).isEmpty = false := by
    simpa using some
  have sameSettings :
      Invocation.settings { invocation with expressions := linesBeforeStop input } =
        invocation.settings := rfl
  unfold runInvocation
  rw [sameSettings, noExpression]
  cases invocation.settings with
  | error error => rfl
  | ok settings =>
    simp only [filled, Bool.false_eq_true, if_false, List.isEmpty_nil, if_true,
      expressionsOfInput_eq]
    rw [evaluateAll_withExpressions]

theorem run_congr {input other : String} (same : linesBeforeStop input = linesBeforeStop other)
    (options : List String) (random : RandomSource) :
    run options input random = run options other random := by
  unfold run runInvocation
  simp only [expressionsOfInput_eq, same]

/-- Whether expressions stand behind the options or on the lines of the input, the program leaves
the same behind, and in particular nothing behind a line that says to stop counts. -/
theorem run_expressions_eq_run_lines {options : List String} (areOptions : AreOptions options)
    {input : String} (some : linesBeforeStop input ≠ [])
    (noDash : ∀ line ∈ linesBeforeStop input, HasNoDash line) (other : String)
    (random : RandomSource) :
    run (options ++ linesBeforeStop input) other random = run options input random ∧
      ((∃ line ∈ strippedLines input, isStop line = true) → ∀ more,
        run options (input ++ "\n" ++ more) random = run options input random) := by
  constructor
  · rcases areOptions with help | ⟨invocation, accepted, noExpression⟩
    · unfold run
      rw [ofTexts_help_append help noDash, help]
    · unfold run
      rw [ofTexts_evaluate_append accepted noExpression noDash, accepted]
      exact runInvocation_withExpressions noExpression some other random
  · intro stops more
    exact run_congr (linesBeforeStop_append stops more) options random

/-- A variable is defined on one line and used on another one. -/
theorem run_expressions_eq_run_lines_of_square :
    let options := ["--deg", "--precision", "-1", "--verbose"]
    let input := "  x = 4 \n\n x^2\nEXIT"
    AreOptions options ∧ linesBeforeStop input = ["x = 4", "x^2"] ∧
      (∃ line ∈ strippedLines input, isStop line = true) ∧
      (run options input (.cycling [])).output = "postfix: x 4 =\npostfix: x 2 ^\n16\n" ∧
      run (options ++ ["x = 4", "x^2"]) "x = 5" (.cycling []) = run options input (.cycling []) ∧
      run options (input ++ "\n" ++ "x^3") (.cycling []) = run options input (.cycling []) := by
  intro options input
  have areOptions : AreOptions options := .inr ⟨_, rfl, rfl⟩
  have lines : linesBeforeStop input = ["x = 4", "x^2"] := by decide +kernel
  have stops : ∃ line ∈ strippedLines input, isStop line = true := by decide +kernel
  have both := run_expressions_eq_run_lines areOptions (by rw [lines]; decide)
    (by rw [lines]; decide +kernel) "x = 5" (.cycling [])
  rw [lines] at both
  exact ⟨areOptions, lines, stops, by decide +kernel, both.1, both.2 stops "x^3"⟩

end CommandLine

end Reckoner
