import Reckoner.Proofs.Ending
import Reckoner.Proofs.Variables

/-!
# The definitions of a run

An assignment that finds a left operand defines its text, and nothing else changes a table. So the
definitions of a run are listed beside it, in their order, and the table at its end is the table at
its start with these definitions made. A run that is stopped has made those before it stopped.
-/

set_option autoImplicit false

namespace Reckoner

namespace Variables

/-- The table with definitions made one after the other. -/
def defineAll (table : Variables) (made : List (String × Float)) : Variables :=
  made.foldl (fun before entry => before.define entry.1 entry.2) table

variable (table : Variables) {made : List (String × Float)} {name : String}

theorem defineAll_append (made others : List (String × Float)) :
    table.defineAll (made ++ others) = (table.defineAll made).defineAll others :=
  List.foldl_append

theorem names_defineAll (made : List (String × Float)) :
    (table.defineAll made).names =
      table.names ++ ((made.map Prod.fst).filter (· ∉ table.names)).eraseDups := by
  induction made generalizing table with
  | nil => simp [defineAll]
  | cons entry made inner =>
    obtain ⟨name, value⟩ := entry
    have unfolded := inner (table.define name value)
    rw [names_define] at unfolded
    by_cases known : name ∈ table.names
    · have dropped : (((name, value) :: made).map Prod.fst).filter (· ∉ table.names) =
          (made.map Prod.fst).filter (· ∉ table.names) :=
        List.filter_cons_of_neg (by simpa using known)
      rw [if_pos ((contains_iff_mem_names table name).2 known)] at unfolded
      rw [dropped]
      exact unfolded
    · have kept : (((name, value) :: made).map Prod.fst).filter (· ∉ table.names) =
          name :: (made.map Prod.fst).filter (· ∉ table.names) :=
        List.filter_cons_of_pos (by simpa using known)
      have others : (made.map Prod.fst).filter (· ∉ table.names ++ [name]) =
          ((made.map Prod.fst).filter (· ∉ table.names)).filter (fun other => !other == name) := by
        rw [List.filter_filter]
        apply List.filter_congr
        intro other _
        by_cases same : other = name
        · simp [same]
        · simp [same]
      rw [if_neg (mt (contains_iff_mem_names table name).1 known), others] at unfolded
      rw [kept, List.eraseDups_cons]
      exact unfolded.trans (List.append_assoc _ _ _)

theorem nodup_names_defineAll (distinct : table.names.Nodup) (made : List (String × Float)) :
    (table.defineAll made).names.Nodup := by
  induction made generalizing table with
  | nil => exact distinct
  | cons entry made inner =>
    exact inner (table.define entry.1 entry.2) (nodup_names_define distinct entry.1 entry.2)

theorem get?_defineAll_of_not_mem (untouched : name ∉ made.map Prod.fst) :
    (table.defineAll made).get? name = table.get? name := by
  induction made generalizing table with
  | nil => rfl
  | cons entry made inner =>
    rw [List.map_cons, List.mem_cons, not_or] at untouched
    refine (inner (table.define entry.1 entry.2) untouched.2).trans ?_
    rw [get?_define, if_neg untouched.1]

theorem get?_defineAll_last (earlier : List (String × Float)) (value : Float)
    {later : List (String × Float)} (isLast : name ∉ later.map Prod.fst) :
    (table.defineAll (earlier ++ (name, value) :: later)).get? name = some value := by
  rw [defineAll_append]
  refine (get?_defineAll_of_not_mem _ isLast).trans ?_
  rw [get?_define, if_pos rfl]

end Variables

namespace Machine

variable {settings : Settings} {machine : Machine}

/-- What a token defines: an assignment that finds a left operand, whatever it is, gives its text
the value of the right operand. A right operand without a value stops the run instead. -/
def definition? (machine : Machine) (token : Token) : Option (String × Float) :=
  if token.isCallable && token.text == assignmentText then
    (machine.taken token).1.bind fun target =>
      (resolve machine.table (machine.taken token).2).toOption.map fun value => (target.text, value)
  else none

/-- The definitions of a run, in their order, up to where it stops. -/
def definitions (settings : Settings) (machine : Machine) : List Token → List (String × Float)
  | [] => []
  | token :: tokens =>
    (machine.definition? token).toList ++
      match step settings machine token with
      | .error _ => []
      | .ok after => definitions settings after tokens

theorem definition?_of_ne {token : Token} (other : token.text ≠ assignmentText) :
    machine.definition? token = none := by
  simp [definition?, other]

theorem endsWith_assign_table (machine : Machine) (target source : Option Token) :
    EndsWith (fun after => after.table = machine.table.defineAll
        (target.bind fun token =>
          (resolve machine.table source).toOption.map fun value => (token.text, value)).toList)
      (machine.assign target source) := by
  unfold assign
  simp only
  cases resolve machine.table source with
  | error refused =>
    cases target with
    | none => rfl
    | some token => rfl
  | ok value =>
    cases target with
    | none => exact table_push _ _
    | some token => exact table_push _ _

/-- A step makes the definition of its token, and no other. -/
theorem endsWith_step_table (settings : Settings) (machine : Machine) (token : Token) :
    EndsWith (fun after => after.table = machine.table.defineAll (machine.definition? token).toList)
      (step settings machine token) := by
  unfold step
  split
  · rename_i callable
    rcases apply_cases settings machine token with
      ⟨empty, -, skipped⟩ | ⟨-, ⟨isAssignment, assigned⟩ | ⟨other, operated⟩⟩
    · have none : machine.definition? token = none := by
        simp [definition?, taken, empty]
      rw [skipped, none]
      rfl
    · have made : machine.definition? token = (machine.taken token).1.bind fun target =>
          (resolve machine.table (machine.taken token).2).toOption.map
            fun value => (target.text, value) := by
        simp [definition?, callable, isAssignment]
      rw [assigned, made]
      exact endsWith_assign_table (machine.popped token) _ _
    · rw [operated, definition?_of_ne other]
      refine (endsWith_operate settings (machine.popped token) _ _ _).mono ?_
      rintro after ⟨-, same⟩
      exact same
  · rename_i noCallable
    have none : machine.definition? token = none := by
      simp [definition?, Bool.eq_false_iff.2 noCallable]
    rw [none]
    exact machine.table_push token

/-- A run makes its definitions, one after the other, and changes the table in no other way. -/
theorem endsWith_run_table (settings : Settings) (machine : Machine) (tokens : List Token) :
    EndsWith (fun after => after.table = machine.table.defineAll (machine.definitions settings tokens))
      (run settings machine tokens) := by
  induction tokens generalizing machine with
  | nil => rfl
  | cons token tokens inner =>
    have stepped := endsWith_step_table settings machine token
    rw [run_cons, definitions]
    cases next : step settings machine token with
    | error stopped =>
      rw [next] at stepped
      simp only [List.append_nil]
      exact stepped
    | ok after =>
      rw [next] at stepped
      refine (inner after).mono ?_
      intro final defined
      rw [defined, Variables.defineAll_append]
      exact congrArg (Variables.defineAll · _) stepped

theorem length_definitions_le (settings : Settings) (machine : Machine) (tokens : List Token) :
    (machine.definitions settings tokens).length ≤
      tokens.countP fun token => token.text = assignmentText := by
  induction tokens generalizing machine with
  | nil => exact Nat.le_refl 0
  | cons token tokens inner =>
    have first : (machine.definition? token).toList.length ≤
        if token.text = assignmentText then 1 else 0 := by
      split
      · cases machine.definition? token with
        | none => exact Nat.zero_le 1
        | some entry => exact Nat.le_refl 1
      · rename_i other
        rw [definition?_of_ne other]
        exact Nat.le_refl 0
    have others : (match step settings machine token with
        | .error _ => []
        | .ok after => definitions settings after tokens).length ≤
          tokens.countP fun token => token.text = assignmentText := by
      cases step settings machine token with
      | error stopped => exact Nat.zero_le _
      | ok after => exact inner after
    rw [definitions, List.length_append, List.countP_cons]
    simp only [decide_eq_true_eq]
    omega

theorem outcome_table_evaluate (settings : Settings) (machine : Machine) (tokens : List Token) :
    (outcome (machine.evaluate settings tokens)).2.1 = machine.table.defineAll
      (definitions settings { machine with definesVariable := false } tokens) := by
  have ended := endsWith_run_table settings { machine with definesVariable := false } tokens
  rw [evaluate_eq]
  cases ran : run settings { machine with definesVariable := false } tokens with
  | error stopped =>
    rw [ran] at ended
    exact ended
  | ok after =>
    rw [ran] at ended
    exact (outcome_finish_table after).trans ended

/-- An evaluation touches assigned variables only, whether or not it comes to its end. With the
definitions it makes listed in their order, the names are those before and then the new ones as they
were first defined; a name has its value before, or that of its last definition; and there are at
most as many definitions as assignments among the tokens. -/
theorem evaluate_touches_assigned (settings : Settings) (machine : Machine) (tokens : List Token) :
    let made := definitions settings { machine with definesVariable := false } tokens
    let after := (outcome (machine.evaluate settings tokens)).2.1
    after.names =
        machine.table.names ++ ((made.map Prod.fst).filter (· ∉ machine.table.names)).eraseDups ∧
      (machine.table.names.Nodup → after.names.Nodup) ∧
      (∀ name, name ∉ made.map Prod.fst → after.get? name = machine.table.get? name) ∧
      (∀ earlier name value later, made = earlier ++ (name, value) :: later →
        name ∉ later.map Prod.fst → after.get? name = some value) ∧
      made.length ≤ tokens.countP (fun token => token.text = assignmentText) ∧
      ((∀ token ∈ tokens, token.text ≠ assignmentText) → after = machine.table) := by
  intro made after
  have whole : after = machine.table.defineAll made :=
    outcome_table_evaluate settings machine tokens
  have count : made.length ≤ tokens.countP (fun token => token.text = assignmentText) :=
    length_definitions_le settings { machine with definesVariable := false } tokens
  rw [whole]
  refine ⟨machine.table.names_defineAll made, ?_, ?_, ?_, count, ?_⟩
  · intro distinct
    exact machine.table.nodup_names_defineAll distinct made
  · intro name untouched
    exact machine.table.get?_defineAll_of_not_mem untouched
  · intro earlier name value later split isLast
    rw [split]
    exact machine.table.get?_defineAll_last earlier value isLast
  · intro noAssignment
    have none : tokens.countP (fun token => token.text = assignmentText) = 0 := by
      apply List.countP_eq_zero.2
      intro token member
      simpa using noAssignment token member
    rw [none, Nat.le_zero, List.length_eq_zero_iff] at count
    rw [count]
    rfl

/-- A name that is read before it is redefined and one that is defined twice, in an evaluation that
an operand without a value stops. -/
theorem evaluate_touches_assigned_of_stopped :
    let machine : Machine :=
      { start ⟨[("x", 2)]⟩ (.cycling []) with stack := [Token.ofNumber "1" 1] }
    let tokens := toPostfix (tokenize "(y=x)+(x=7)*(y=9)") ++
      [⟨"\x1c1", .unknown, none⟩, ⟨"+", .operator, none⟩]
    let after := (outcome (machine.evaluate {} tokens)).2.1
    (outcome (machine.evaluate {} tokens)).1.toOption = none ∧ after.names.Nodup ∧
      after.names = ["x", "y"] ∧ after.get? "x" = some 7 ∧ after.get? "y" = some 9 := by
  intro machine tokens after
  obtain ⟨names, distinct, -, last, -⟩ := evaluate_touches_assigned {} machine tokens
  have made : definitions {} machine tokens = [("y", 2), ("x", 7), ("y", 9)] := by decide +kernel
  refine ⟨by decide +kernel, distinct (by decide), ?_, ?_, ?_⟩
  · refine names.trans ?_
    change ["x"] ++ (((definitions {} machine tokens).map Prod.fst).filter (· ∉ ["x"])).eraseDups = _
    rw [made]
    decide
  · exact last [("y", 2)] "x" 7 [("y", 9)] made (by decide)
  · exact last [("y", 2), ("x", 7)] "y" 9 [] made (by decide)

end Machine

end Reckoner
