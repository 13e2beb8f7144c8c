import Reckoner.Proofs.Grammar
import Reckoner.Proofs.Lexed
import Reckoner.Proofs.Machine

/-!
# Values of trees

A tree without assignments and random numbers has a value that depends on the settings and the table
of variables alone, and the machine that runs its tokens in postfix order puts one token on the stack
that stands for this value. It leaves the table and the source of random numbers as they were; only
warnings may be added.
-/

set_option autoImplicit false

namespace Reckoner

open Binary64

namespace Operation

theorem apply_flags (operation : Operation) (inDegrees : Bool) (drawn : Float)
    (flags other : Flags) (x y : Float) :
    (operation.apply inDegrees drawn flags x y).1 =
      (operation.apply inDegrees drawn other x y).1 := by
  cases operation with
  | add => rfl
  | subtract => rfl
  | multiply => rfl
  | power => rfl
  | random => rfl
  | _ => simp only [apply, apply_ite Prod.fst]

theorem text_of_random {text : String} (found : ofText? text = some .random) :
    text = randomText := by
  unfold ofText? at found
  cases named : Operation.named.lookup text with
  | none =>
    rw [named] at found
    cases unit : ByteUnit.ofName? text with
    | none => simp [unit] at found
    | some unit' => simp [unit] at found
  | some operation =>
    rw [named, Option.some_or] at found
    obtain ⟨before, after, whole, -⟩ := List.lookup_eq_some_iff.1 named
    have member : (text, operation) ∈ Operation.named := by
      rw [whole]
      exact List.mem_append_right _ List.mem_cons_self
    rw [Option.some.inj found] at member
    have only : ∀ entry ∈ Operation.named, entry.2 = .random → entry.1 = randomText := by
      decide
    exact only _ member rfl

end Operation

namespace Settings

/-- The result of the operation that a text stands for, random numbers apart. -/
def compute (settings : Settings) (text : String) (x y : Float) : Float :=
  match Operation.ofText? text with
  | none => zero
  | some operation => (operation.apply settings.inDegrees zero {} x y).1

/-- An operation applied to two numbers: both are rounded, and so is the result. -/
def applied (settings : Settings) (text : String) (x y : Float) :
    Except Decimal.PlacesError Float := do
  let x ← settings.precision.round x
  let y ← settings.precision.round y
  settings.precision.round (settings.compute text x y)

end Settings

namespace Machine

variable {settings : Settings} {machine : Machine}

theorem compute_of_ne_random {text : String} (noRandom : text ≠ randomText) (x y : Float) :
    ∃ flags, machine.compute settings text x y =
      (settings.compute text x y, { machine with flags := flags }) := by
  unfold compute Settings.compute
  cases found : Operation.ofText? text with
  | none => exact ⟨machine.flags, rfl⟩
  | some operation =>
    have other : operation ≠ .random := by
      rintro rfl
      exact noRandom (Operation.text_of_random found)
    have same := operation.apply_flags settings.inDegrees zero machine.flags {} x y
    refine ⟨(operation.apply settings.inDegrees zero machine.flags x y).2, ?_⟩
    simp only [other, if_false]
    rw [← same]

/-- What a run does that pushes a number without touching the table and the random numbers: one
token for the number is put on the stack, or a rounding is refused. -/
def Pushes (machine : Machine) : Except Decimal.PlacesError Float → Except Stopped Machine → Prop
  | .ok number, run => ∃ token flags defines,
      run = .ok { machine with
        stack := token :: machine.stack, flags := flags, definesVariable := defines } ∧
        resolve machine.table (some token) = .ok number
  | .error error, run => ∃ stopped : Stopped,
      run = .error stopped ∧ stopped.failure = .places error ∧
        stopped.machine.table = machine.table ∧ stopped.machine.random = machine.random

theorem pushes_operate {text : String} (noRandom : text ≠ randomText) {left right : Option Token}
    {x y : Float} (resolvedLeft : resolve machine.table left = .ok x)
    (resolvedRight : resolve machine.table right = .ok y) :
    machine.Pushes (settings.applied text x y) (operate settings machine text left right) := by
  simp only [operate, operands, resolvedLeft, resolvedRight, Settings.applied]
  cases settings.precision.round x with
  | error error => exact ⟨_, rfl, rfl, rfl, rfl⟩
  | ok roundedX =>
    cases settings.precision.round y with
    | error error => exact ⟨_, rfl, rfl, rfl, rfl⟩
    | ok roundedY =>
      obtain ⟨flags, computed⟩ := @compute_of_ne_random settings
        { machine with definesVariable := false } text noRandom roundedX roundedY
      simp only [computed, bind, Except.bind]
      cases settings.precision.round (settings.compute text roundedX roundedY) with
      | error error => exact ⟨_, rfl, rfl, rfl, rfl⟩
      | ok rounded =>
        exact ⟨Token.ofResult rounded, flags, false, congrArg Except.ok (push_ofResult rounded),
          resolve_ofResult _ rounded⟩

end Machine

namespace Tree

/-- The value of a tree: operands first, left to right. A missing left operand is zero. -/
def value (settings : Settings) (table : Variables) : Tree → Except Decimal.PlacesError Float
  | leaf token => .ok ((Machine.resolve table (some token)).toOption.getD zero)
  | unary operator operand => do
    settings.applied operator.text zero (← operand.value settings table)
  | binary operator left right => do
    let x ← left.value settings table
    let y ← right.value settings table
    settings.applied operator.text x y

/-- Tables in which every token of a tree stands for the same number give it the same value. -/
theorem value_congr {settings : Settings} {table other : Variables} {tree : Tree}
    (same : ∀ token ∈ tree.postorder,
      Machine.resolve table (some token) = Machine.resolve other (some token)) :
    tree.value settings table = tree.value settings other := by
  induction tree with
  | leaf token => simp only [value, same token List.mem_cons_self]
  | unary operator operand inner =>
    have equal := inner fun token member => same token (List.mem_append_left _ member)
    simp only [value, equal]
  | binary operator left right leftInner rightInner =>
    have leftEqual := leftInner fun token member =>
      same token (List.mem_append_left _ (List.mem_append_left _ member))
    have rightEqual := rightInner fun token member =>
      same token (List.mem_append_left _ (List.mem_append_right _ member))
    simp only [value, leftEqual, rightEqual]

/-- Trees that the machine evaluates without side effects: each token has the operands that it
takes, none is an assignment or a random number, and every leaf stands for a number. -/
inductive IsPlain : Tree → Prop where
  | leaf {token : Token} : token.isCallable = false → token.text.isEmpty = false →
      token.Resolves → IsPlain (.leaf token)
  | unary {operator : Token} {operand : Tree} : operator.isCallable = true →
      operator.operandCount = 1 → operator.text ≠ assignmentText → operator.text ≠ randomText →
      IsPlain operand → IsPlain (.unary operator operand)
  | binary {operator : Token} {left right : Tree} : operator.isCallable = true →
      operator.operandCount = 2 → operator.text ≠ assignmentText → operator.text ≠ randomText →
      IsPlain left → IsPlain right → IsPlain (.binary operator left right)

end Tree

namespace Machine

variable {settings : Settings} {machine : Machine}

/-- What follows a run that pushes a number, given what it does with that number's token. -/
theorem pushes_bind {tokens others : List Token} {first : Except Decimal.PlacesError Float}
    {following : Float → Except Decimal.PlacesError Float} {before : Machine}
    (sameTable : before.table = machine.table) (sameRandom : before.random = machine.random)
    (ran : machine.Pushes first (run settings machine tokens))
    (continued : ∀ number token flags defines,
      resolve machine.table (some token) = .ok number →
      before.Pushes (following number) (run settings { machine with
        stack := token :: machine.stack, flags := flags, definesVariable := defines } others)) :
    before.Pushes (first >>= following) (run settings machine (tokens ++ others)) := by
  rw [run_append]
  cases first with
  | error error =>
    obtain ⟨stopped, failed, cause, table, random⟩ := ran
    rw [failed]
    exact ⟨stopped, rfl, cause, table.trans sameTable.symm, random.trans sameRandom.symm⟩
  | ok number =>
    obtain ⟨token, flags, defines, pushed, resolved⟩ := ran
    rw [pushed]
    exact continued number token flags defines resolved

/-- The tokens of a plain tree in postfix order push the tree's value, from any stack. -/
theorem pushes_postorder {tree : Tree} (plain : tree.IsPlain) :
    machine.Pushes (tree.value settings machine.table) (run settings machine tree.postorder) := by
  induction plain generalizing machine with
  | @leaf token noCall text resolves =>
    obtain ⟨number, resolved⟩ := resolves machine.table
    refine ⟨token, machine.flags, machine.definesVariable, ?_, ?_⟩
    · rw [Tree.postorder, run_singleton, step_operand noCall text]
    · rw [resolved]
      rfl
  | @unary operator operand callable one noAssignment noRandom _ inner =>
    refine pushes_bind rfl rfl inner fun number token flags defines resolved => ?_
    rw [run_singleton, step_unary callable one noAssignment rfl]
    exact pushes_operate noRandom rfl resolved
  | @binary operator left right callable two noAssignment noRandom _ _ leftInner rightInner =>
    rw [Tree.postorder, List.append_assoc]
    refine pushes_bind rfl rfl leftInner fun x leftToken flags defines resolvedLeft => ?_
    refine pushes_bind rfl rfl rightInner fun y rightToken flags defines resolvedRight => ?_
    rw [run_singleton, step_binary callable two noAssignment rfl]
    exact pushes_operate noRandom resolvedLeft resolvedRight

end Machine

end Reckoner
