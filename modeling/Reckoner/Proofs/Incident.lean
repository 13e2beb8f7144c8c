import Reckoner.Calculator
import Reckoner.Proofs.Outcome
import Reckoner.Proofs.Machine

/-!
# Incidents

While an expression is evaluated, a name may be used that has no value at that moment, or an unknown
character, a divisor may be zero, and the argument of an inverse function may lie outside its
domain. The incidents of an evaluation are read off the machine's steps, whatever flags it sets.

Each of them leaves something behind that the warnings are made of later. The invariant of a run is
that the names and unknown characters on the stack are tokens of the expression, and no flag is
lowered.
-/

set_option autoImplicit false

namespace Reckoner

open Binary64

inductive Incident where
  | undefinedName (name : String)
  | unknownCharacter (text : String)
  | zeroDivisor
  | outsideDomain (argument : Float)
  deriving Repr, DecidableEq

/-- What happens when an operand is resolved. -/
def Token.incident? (table : Variables) (token : Token) : Option Incident :=
  if token.kind = .name then
    if table.contains token.text then none else some (.undefinedName token.text)
  else if token.kind = .unknown then some (.unknownCharacter token.text)
  else none

/-- What happens when an operation meets its right operand. An argument that is not a number is
outside every domain. -/
def Operation.incident? (inDegrees : Bool) (operand : Float) (operation : Operation) :
    Option Incident :=
  if operation = .divide then if operand == zero then some .zeroDivisor else none
  else if operation.isInverse then
    let argument := if inDegrees then radians operand else operand
    if argument < -one || one < argument || argument.isNaN then some (.outsideDomain argument)
    else none
  else none

namespace Machine

/-- The operands that a token resolves when it is applied. An assignment leaves its target alone. -/
def resolved (machine : Machine) (token : Token) : List Token :=
  (if token.text = assignmentText then none else (machine.taken token).1).toList ++
    (machine.taken token).2.toList

/-- What happens to the operation of a token that is applied, once its operands are resolved. -/
def operationIncident? (settings : Settings) (machine : Machine) (token : Token) :
    Option Incident :=
  match operands settings machine.table (machine.taken token).1 (machine.taken token).2 with
  | .ok (_, operand) =>
    (Operation.ofText? token.text).bind (·.incident? settings.inDegrees operand)
  | .error _ => none

/-- What happens in a step. Nothing is resolved where the stack is empty. -/
def incidents (settings : Settings) (machine : Machine) (token : Token) : List Incident :=
  if machine.stack.isEmpty || !token.isCallable then []
  else (machine.resolved token).filterMap (·.incident? machine.table) ++
    (machine.operationIncident? settings token).toList

/-- What happens during a run, and at its end when the token on top of the stack is resolved. -/
def runIncidents (settings : Settings) (machine : Machine) : List Token → List Incident
  | [] => machine.stack.head?.toList.filterMap (·.incident? machine.table)
  | token :: tokens => machine.incidents settings token ++
    match step settings machine token with
    | .ok next => next.runIncidents settings tokens
    | .error _ => []

end Machine

/-- What happens while a text is evaluated. -/
def Calculator.incidents (calculator : Calculator) (random : RandomSource) (text : String) :
    List Incident :=
  (Machine.start calculator.table random).runIncidents calculator.settings (convert text).2

/-! ## What is noted on the way -/

namespace Flags

/-- Flags of which none is lost later. -/
structure Within (flags later : Flags) : Prop where
  divisionByZero : flags.divisionByZero = true → later.divisionByZero = true
  trigonometricDomain : flags.trigonometricDomain = true → later.trigonometricDomain = true

theorem within_self (flags : Flags) : flags.Within flags := ⟨id, id⟩

theorem Within.trans {flags middle later : Flags} (first : flags.Within middle)
    (second : middle.Within later) : flags.Within later :=
  ⟨second.divisionByZero ∘ first.divisionByZero,
    second.trigonometricDomain ∘ first.trigonometricDomain⟩

end Flags

namespace Incident

/-- An incident has left what the warnings are made of: the token that was resolved is one of the
expression, or the flag for the operation is raised. -/
def Noted (tokens : List Token) (flags : Flags) : Incident → Prop
  | undefinedName name => ∃ token ∈ tokens, token.kind = .name ∧ token.text = name
  | unknownCharacter text => ∃ token ∈ tokens, token.kind = .unknown ∧ token.text = text
  | zeroDivisor => flags.divisionByZero = true
  | outsideDomain argument => argument.isNaN = false → flags.trigonometricDomain = true

variable {tokens : List Token} {flags later : Flags} {incident : Incident}

theorem Noted.mono (noted : incident.Noted tokens flags) (within : flags.Within later) :
    incident.Noted tokens later := by
  cases incident with
  | undefinedName name => exact noted
  | unknownCharacter text => exact noted
  | zeroDivisor => exact within.divisionByZero noted
  | outsideDomain argument => exact fun number => within.trigonometricDomain (noted number)

theorem noted_of_operand {table : Variables} {token : Token}
    (inside : token.kind = .number ∨ token ∈ tokens)
    (met : token.incident? table = some incident) : incident.Noted tokens flags := by
  unfold Token.incident? at met
  rcases inside with number | member
  · simp [number] at met
  · split at met
    · rename_i isName
      split at met
      · cases met
      · cases met
        exact ⟨token, member, isName, rfl⟩
    · split at met
      · rename_i isUnknown
        cases met
        exact ⟨token, member, isUnknown, rfl⟩
      · cases met

end Incident

namespace Operation

theorem flags_within_warned (flags : Flags) (outside : Prop) [Decidable outside] (x y : Float) :
    flags.Within
      (if outside then (x, { flags with trigonometricDomain := true }) else (y, flags)).2 := by
  split
  · exact ⟨id, fun _ => rfl⟩
  · exact flags.within_self

theorem flags_within_apply (operation : Operation) (inDegrees : Bool) (drawn : Float)
    (flags : Flags) (x y : Float) : flags.Within (operation.apply inDegrees drawn flags x y).2 := by
  cases operation with
  | add => exact flags.within_self
  | subtract => exact flags.within_self
  | multiply => exact flags.within_self
  | power => exact flags.within_self
  | random => exact flags.within_self
  | divide =>
    simp only [apply]
    split
    · exact ⟨fun _ => rfl, id⟩
    · exact flags.within_self
  | _ => exact flags_within_warned flags _ _ _

theorem noted_apply {operation : Operation} {inDegrees : Bool} {y : Float} {incident : Incident}
    (met : operation.incident? inDegrees y = some incident) (tokens : List Token) (drawn : Float)
    (flags : Flags) (x : Float) :
    incident.Noted tokens (operation.apply inDegrees drawn flags x y).2 := by
  unfold incident? at met
  split at met
  · rename_i isDivision
    split at met
    · rename_i isZero
      cases met
      simp [isDivision, apply, isZero, Incident.Noted]
    · cases met
  · split at met
    · rename_i isInverse
      generalize argued : (if inDegrees then radians y else y) = argument at met
      simp only at met
      split at met
      · rename_i outside
        cases met
        intro number
        simp only [number, Bool.or_false] at outside
        cases operation with
        | arcSine => simp [apply, isTrigonometric, isInverse, argued, outside]
        | arcCosine => simp [apply, isTrigonometric, isInverse, argued, outside]
        | arcTangent => simp [apply, isTrigonometric, isInverse, argued, outside]
        | _ => cases isInverse
      · cases met
    · cases met

end Operation

namespace Machine

variable {settings : Settings} {machine : Machine} {tokens : List Token}

/-- The names and the unknown characters on the stack are tokens of the expression. -/
def StackFrom (tokens : List Token) (machine : Machine) : Prop :=
  ∀ token ∈ machine.stack, token.kind = .number ∨ token ∈ tokens

theorem StackFrom.push_ofResult (stackFrom : machine.StackFrom tokens) (number : Float) :
    (machine.push (Token.ofResult number)).StackFrom tokens :=
  forall_mem_push stackFrom (.inl rfl)

theorem flags_compute (settings : Settings) (machine : Machine) (text : String) (x y : Float) :
    (machine.compute settings text x y).2.flags = machine.flags ∧ Operation.ofText? text = none ∨
      ∃ operation drawn, Operation.ofText? text = some operation ∧
        (machine.compute settings text x y).2.flags =
          (operation.apply settings.inDegrees drawn machine.flags x y).2 := by
  unfold compute
  cases found : Operation.ofText? text with
  | none => exact .inl ⟨rfl, rfl⟩
  | some operation => exact .inr ⟨operation, _, rfl, rfl⟩

theorem noted_of_resolved (stackFrom : machine.StackFrom tokens) {operands : List Token}
    (inside : operands ⊆ machine.stack) {incident : Incident}
    (met : incident ∈ operands.filterMap (·.incident? machine.table)) (flags : Flags) :
    incident.Noted tokens flags := by
  obtain ⟨operand, member, found⟩ := List.mem_filterMap.1 met
  exact Incident.noted_of_operand (stackFrom operand (inside member)) found

theorem resolved_subset (machine : Machine) (token : Token) :
    machine.resolved token ⊆ machine.stack := by
  intro operand member
  apply mem_stack_of_mem_taken token
  rcases List.mem_append.1 member with isLeft | isRight
  · split at isLeft
    · cases isLeft
    · exact .inl (Option.mem_toList.1 isLeft)
  · exact .inr (Option.mem_toList.1 isRight)

/-- What a step keeps, and what it notes. -/
structure Steps (tokens : List Token) (settings : Settings) (machine : Machine) (token : Token)
    (next : Machine) : Prop where
  stackFrom : next.StackFrom tokens
  within : machine.flags.Within next.flags
  noted : ∀ incident ∈ machine.incidents settings token, incident.Noted tokens next.flags

theorem noted_of_incidents (stackFrom : machine.StackFrom tokens) {token : Token} {flags : Flags}
    (operation : ∀ incident, machine.operationIncident? settings token = some incident →
      incident.Noted tokens flags) :
    ∀ incident ∈ machine.incidents settings token, incident.Noted tokens flags := by
  intro incident met
  unfold incidents at met
  split at met
  · cases met
  · rcases List.mem_append.1 met with operand | isOperation
    · exact noted_of_resolved stackFrom (machine.resolved_subset token) operand flags
    · exact operation incident (Option.mem_toList.1 isOperation)

theorem steps_of_assign (stackFrom : machine.StackFrom tokens) {token : Token} {next : Machine}
    (isAssignment : token.text = assignmentText)
    (assigned : (machine.popped token).assign (machine.taken token).1 (machine.taken token).2 =
      .ok next) : Steps tokens settings machine token next := by
  obtain ⟨table, number, -, -, rfl⟩ := exists_of_assign assigned
  have kept : StackFrom tokens
      { machine.popped token with definesVariable := true, table := table } :=
    forall_mem_popped stackFrom token
  refine ⟨kept.push_ofResult number, ?_, noted_of_incidents stackFrom ?_⟩
  · rw [flags_push]
    exact machine.flags.within_self
  · intro incident met
    have noOperation : Operation.ofText? assignmentText = none := by decide
    unfold operationIncident? at met
    rw [isAssignment, noOperation] at met
    split at met
    · cases met
    · cases met

theorem steps_of_operate (stackFrom : machine.StackFrom tokens) {token : Token} {next : Machine}
    (operated : operate settings (machine.popped token) token.text (machine.taken token).1
      (machine.taken token).2 = .ok next) : Steps tokens settings machine token next := by
  obtain ⟨x, y, number, resolved, rfl⟩ := exists_of_operate operated
  have sameTable : (machine.popped token).table = machine.table := rfl
  obtain ⟨flags, random, framed⟩ := compute_frame settings
    { machine.popped token with definesVariable := false } token.text x y
  have flagged := flags_compute settings
    { machine.popped token with definesVariable := false } token.text x y
  rw [framed] at flagged ⊢
  simp only at flagged
  have kept : StackFrom tokens
      { machine.popped token with definesVariable := false, flags := flags, random := random } :=
    forall_mem_popped stackFrom token
  refine ⟨kept.push_ofResult number, ?_, noted_of_incidents stackFrom ?_⟩
  · rw [flags_push]
    rcases flagged with ⟨same, -⟩ | ⟨operation, drawn, -, same⟩
    · rw [same]
      exact machine.flags.within_self
    · rw [same]
      exact operation.flags_within_apply _ _ _ _ _
  · intro incident met
    rw [flags_push]
    rw [sameTable] at resolved
    simp only [operationIncident?, resolved] at met
    obtain ⟨operation, found, raised⟩ := Option.bind_eq_some_iff.1 met
    rcases flagged with ⟨-, none⟩ | ⟨other, drawn, isOther, same⟩
    · rw [found] at none
      cases none
    · obtain rfl : operation = other := Option.some.inj (found.symm.trans isOther)
      rw [same]
      exact Operation.noted_apply raised tokens drawn _ x

theorem steps_of_step (stackFrom : machine.StackFrom tokens) {token : Token}
    (member : token ∈ tokens) {next : Machine} (stepped : step settings machine token = .ok next) :
    Steps tokens settings machine token next := by
  unfold step at stepped
  split at stepped
  · rename_i callable
    rcases apply_cases settings machine token with
      ⟨empty, -, skipped⟩ | ⟨-, ⟨isAssignment, assigned⟩ | ⟨-, operated⟩⟩
    · rw [skipped] at stepped
      cases stepped
      refine ⟨stackFrom, machine.flags.within_self, ?_⟩
      intro incident met
      simp [incidents, empty] at met
    · exact steps_of_assign stackFrom isAssignment (assigned.symm.trans stepped)
    · exact steps_of_operate stackFrom (operated.symm.trans stepped)
  · rename_i noCallable
    cases stepped
    refine ⟨forall_mem_push stackFrom (.inr member), ?_, ?_⟩
    · rw [flags_push]
      exact machine.flags.within_self
    · intro incident met
      simp [incidents, noCallable] at met

theorem noted_of_runIncidents {first : List Token} (stackFrom : machine.StackFrom tokens)
    (inside : first ⊆ tokens) {after : Machine} (ran : run settings machine first = .ok after) :
    machine.flags.Within after.flags ∧
      ∀ incident ∈ machine.runIncidents settings first, incident.Noted tokens after.flags := by
  induction first generalizing machine with
  | nil =>
    rw [← Except.ok.inj ran]
    refine ⟨machine.flags.within_self, fun incident met => ?_⟩
    refine noted_of_resolved stackFrom ?_ met machine.flags
    exact fun operand isTop => List.mem_of_mem_head? (Option.mem_toList.1 isTop)
  | cons token first inner =>
    rw [run_cons] at ran
    unfold runIncidents
    cases stepped : step settings machine token with
    | error stopped =>
      rw [stepped] at ran
      cases ran
    | ok next =>
      rw [stepped] at ran
      have here := steps_of_step stackFrom (inside List.mem_cons_self) stepped
      obtain ⟨within, later⟩ :=
        inner here.stackFrom (fun other member => inside (List.mem_cons_of_mem token member)) ran
      refine ⟨here.within.trans within, fun incident met => ?_⟩
      rcases List.mem_append.1 met with now | then'
      · exact (here.noted incident now).mono within
      · exact later incident then'

theorem noted_of_evaluate (stackFrom : machine.StackFrom tokens) {first : List Token}
    (inside : first ⊆ tokens) {value : Float} {after : Machine}
    (evaluated : machine.evaluate settings first = .ok (value, after)) :
    ∀ incident ∈ { machine with definesVariable := false }.runIncidents settings first,
      incident.Noted tokens after.flags := by
  rw [evaluate_eq] at evaluated
  cases ran : run settings { machine with definesVariable := false } first with
  | error stopped =>
    rw [ran] at evaluated
    cases evaluated
  | ok ended =>
    rw [ran] at evaluated
    rw [finish_frame evaluated]
    have started : StackFrom tokens { machine with definesVariable := false } := stackFrom
    exact (noted_of_runIncidents started inside ran).2

end Machine

end Reckoner
