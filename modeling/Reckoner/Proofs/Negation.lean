import Reckoner.Proofs.Completion
import Reckoner.Proofs.Decimal.Negation
import Reckoner.Proofs.UnaryMinus

/-!
# What a unary minus negates

After a sum or a difference a unary minus negates what it stands in front of. After a product it
negates the left factor, which makes no difference to the value: negation passes through products
and roundings. After a quotient, a power or the name of a function it does make one, since these are
taken of minus one and then multiplied.
-/

set_option autoImplicit false

namespace Reckoner

open Binary64

/-! ## Values -/

namespace Settings

variable {settings : Settings}

theorem compute_multiply (x y : Float) : settings.compute "*" x y = x * y := rfl

/-- Which factor of a product is negated makes no difference, also not to whether it is refused. -/
theorem applied_negation (x y : Float) :
    (settings.applied "*" x (-one) >>= fun negated => settings.applied "*" negated y).toOption =
      (settings.applied "*" (-one) y >>= fun negated => settings.applied "*" x negated).toOption := by
  unfold applied
  simp only [compute_multiply]
  cases isOne : settings.precision.round (-one) with
  | error error =>
    cases settings.precision.round x <;> rfl
  | ok one =>
    obtain rfl := Precision.round_neg_one isOne
    cases isX : settings.precision.round x with
    | error error =>
      -- the left operand is refused in both, at once or after the right one is negated
      cases settings.precision.round y with
      | error other => rfl
      | ok roundedY =>
        simp only [bind, Except.bind]
        cases settings.precision.round (-one * roundedY) with
        | error other => rfl
        | ok product => rfl
    | ok roundedX =>
      have negatedX := Precision.round_neg (Precision.round_of_ok isX)
      simp only [bind, Except.bind, Binary64.mul_neg_one, negatedX]
      cases isY : settings.precision.round y with
      | error error => rfl
      | ok roundedY =>
        have negatedY := Precision.round_neg (Precision.round_of_ok isY)
        simp only [Binary64.neg_one_mul, negatedY]
        rw [Binary64.neg_mul]

end Settings

theorem toOption_mapError {Error Other Value : Type} (result : Except Error Value)
    (change : Error → Other) : (result.mapError change).toOption = result.toOption := by
  cases result with
  | error error => rfl
  | ok value => rfl

theorem toOption_bind {Error First Second : Type} {first second : Except Error First}
    (same : first.toOption = second.toOption) (following : First → Except Error Second) :
    (first >>= following).toOption = (second >>= following).toOption := by
  cases first with
  | error error =>
    cases second with
    | error other => rfl
    | ok value => cases same
  | ok value =>
    cases second with
    | error other => cases same
    | ok other =>
      obtain rfl := Option.some.inj same
      rfl

namespace Tree

variable {settings : Settings} {table : Variables}

theorem value_product (left right : Tree) :
    (left.product right).value settings table =
      (do
        let x ← left.value settings table
        let y ← right.value settings table
        settings.applied "*" x y) :=
  rfl

/-- A product with a negated left factor has the value of the one with a negated right factor. -/
theorem toOption_value_negation (left right : Tree) :
    (((left.product minusOne).product right).value settings table).toOption =
      ((left.product (minusOne.product right)).value settings table).toOption := by
  have isMinusOne : minusOne.value settings table = .ok (-one) := rfl
  simp only [value_product, isMinusOne]
  cases left.value settings table with
  | error error => rfl
  | ok x =>
    cases right.value settings table with
    | error error =>
      simp only [bind, Except.bind]
      cases settings.applied "*" x (-one) with
      | error other => rfl
      | ok negated => rfl
    | ok y => exact Settings.applied_negation x y

end Tree

namespace Calculator

open Operation

variable (calculator : Calculator) (random : RandomSource)

theorem outcome_congr {text other : String} {tree : Tree} (plain : tree.IsPlain)
    (derived : Derives 1 (tokenize text) tree) (otherDerived : Derives 1 (tokenize other) tree) :
    calculator.outcome random text = calculator.outcome random other := by
  rw [calculator.outcome_of_derives random derived plain,
    calculator.outcome_of_derives random otherDerived plain]

theorem exists_outcome (workable : calculator.settings.Workable) (text : String) :
    ∃ value, (calculator.outcome random text).1 = .ok value := by
  obtain ⟨report, returned⟩ := exists_report workable random text
  refine ⟨report.value, ?_⟩
  rw [outcome, returned]
  rfl

/-- What a unary minus negates. After a sum, a difference or a product it is as if the negation stood
in parentheses; after a quotient, a power or a function these are taken of minus one, and the result
is multiplied by the operand. Under workable settings there is a value in every case. -/
theorem outcome_negation (left : PlainExpression) (operand : Negated) :
    (∀ operation ∈ [add, subtract],
      calculator.outcome random (operation.writeText left.text ("-" ++ operand.text)) =
        calculator.outcome random (operation.writeText left.text ("(-" ++ operand.text ++ ")"))) ∧
    (let direct := calculator.outcome random
        (multiply.writeText left.text ("-" ++ operand.text))
      let grouped := calculator.outcome random
        (multiply.writeText left.text ("(-" ++ operand.text ++ ")"))
      direct.1.toOption = grouped.1.toOption ∧ direct.2 = grouped.2) ∧
    (∀ operation ∈ [divide, power],
      calculator.outcome random (operation.writeText left.text ("-" ++ operand.text)) =
        calculator.outcome random
          (multiply.writeText (operation.writeText left.text "-1") operand.text)) ∧
    (∀ function : Operation, function.isFunction = true → function ≠ .random →
      calculator.outcome random (function.text ++ " -" ++ operand.text) =
        calculator.outcome random (multiply.writeText (function.text ++ "(-1)") operand.text)) ∧
    (calculator.settings.Workable →
      ∀ text, ∃ value, (calculator.outcome random text).1 = .ok value) := by
  have negated := Tree.isPlain_minusOne.product operand.isPlain
  refine ⟨?_, ?_, ?_, ?_, calculator.exists_outcome random⟩
  · intro operation member
    have facts : operation.isBinary = true ∧ (Token.operator operation.text).precedence = 2 := by
      simp only [List.mem_cons, List.not_mem_nil, or_false] at member
      rcases member with rfl | rfl <;> decide
    exact calculator.outcome_congr random (.ofOperation facts.1 left.isPlain negated)
      (derives_negation_of_sum facts.1 facts.2 left operand)
      (derives_grouped_negation facts.1 left operand)
  · have direct := @derives_negation_of_product multiply rfl (by decide) left operand
    have grouped := @derives_grouped_negation multiply rfl left operand
    rw [calculator.outcome_of_derives random direct
        ((left.isPlain.product Tree.isPlain_minusOne).product operand.isPlain),
      calculator.outcome_of_derives random grouped (left.isPlain.product negated)]
    have same := toOption_bind (@Tree.toOption_value_negation calculator.settings calculator.table
      left.tree operand.tree) calculator.settings.resultPrecision.round
    refine ⟨?_, rfl⟩
    rw [toOption_mapError, toOption_mapError]
    exact same
  · intro operation member
    have facts : operation.isBinary = true ∧ 3 ≤ (Token.operator operation.text).precedence := by
      simp only [List.mem_cons, List.not_mem_nil, or_false] at member
      rcases member with rfl | rfl <;> decide
    exact calculator.outcome_congr random
      ((Tree.IsPlain.ofOperation facts.1 left.isPlain Tree.isPlain_minusOne).product operand.isPlain)
      (derives_negation_of_product facts.1 facts.2 left operand)
      (derives_writeText_multiply (derives_writeText_minusOne facts.1 left) operand)
  · intro function isFunction noRandom
    have pure := text_ne_of_isFunction isFunction noRandom
    exact calculator.outcome_congr random
      (.product (.unary rfl rfl pure.1 pure.2 Tree.isPlain_minusOne) operand.isPlain)
      (derives_negation_of_call isFunction operand)
      (derives_writeText_multiply (derives_call_minusOne isFunction) operand)

end Calculator

def PlainExpression.ofOperand (text : String) (token : Token) (isRead : tokenize text = [token])
    (isOperand : token.isOperand = true) (nonempty : token.text.isEmpty = false)
    (pure : token.text ≠ assignmentText ∧ token.text ≠ randomText) : PlainExpression where
  text := text
  tree := .leaf token
  derived := by
    rw [isRead]
    exact (Derives.operand isOperand nonempty).mono (by decide)
  plain := by
    rw [isRead]
    intro other member
    rwa [List.mem_singleton.1 member]

namespace Calculator

open Operation

/-- A quotient, a power and a function that are not taken of the negated operand. -/
theorem outcome_negation_apart :
    ∃ zeroText oneText twoText negativeText : PlainExpression,
      zeroText.text = "0" ∧ oneText.text = "1" ∧ twoText.text = "2" ∧ negativeText.text = "-2" ∧
      (outcome {} (.cycling []) (divide.writeText oneText.text
        ("-(" ++ twoText.text ++ ")"))).1.toOption = some (-two) ∧
      (outcome {} (.cycling []) (divide.writeText oneText.text
        ("(-(" ++ twoText.text ++ "))"))).1.toOption = some (-half) ∧
      (outcome {} (.cycling []) (power.writeText twoText.text
        ("-(" ++ zeroText.text ++ ")"))).1.toOption = some zero ∧
      (outcome {} (.cycling []) (power.writeText twoText.text
        ("(-(" ++ zeroText.text ++ "))"))).1.toOption = some one ∧
      (outcome {} (.cycling []) ("abs -(" ++ negativeText.text ++ ")")).1.toOption = some (-two) ∧
      (outcome {} (.cycling []) ("abs(-(" ++ negativeText.text ++ "))")).1.toOption = some two ∧
      -two ≠ -half ∧ zero ≠ one ∧ -two ≠ two := by
  refine ⟨.ofOperand "0" (.ofNumber "0" zero) ?_ rfl ?_ ?_,
    .ofOperand "1" (.ofNumber "1" one) ?_ rfl ?_ ?_,
    .ofOperand "2" (.ofNumber "2" two) ?_ rfl ?_ ?_,
    .ofOperand "-2" (.ofNumber "-2" (-two)) ?_ rfl ?_ ?_, rfl, rfl, rfl, rfl, ?_⟩
  all_goals decide +kernel

/-- The same operations where the minus negates what it stands in front of, and what it gives
instead where it does not. -/
theorem outcome_negation_of_one_and_two :
    ∃ left right : PlainExpression, left.text = "1" ∧ right.text = "2" ∧
      add ∈ [add, subtract] ∧ divide ∈ [divide, power] ∧ absolute.isFunction = true ∧
      absolute ≠ .random ∧ ({} : Settings).Workable ∧
      outcome {} (.cycling []) (add.writeText left.text ("-" ++ (Negated.group right).text)) =
        outcome {} (.cycling [])
          (add.writeText left.text ("(-" ++ (Negated.group right).text ++ ")")) ∧
      outcome {} (.cycling []) (divide.writeText left.text ("-" ++ (Negated.group right).text)) =
        outcome {} (.cycling [])
          (multiply.writeText (divide.writeText left.text "-1") (Negated.group right).text) ∧
      outcome {} (.cycling []) (absolute.text ++ " -" ++ (Negated.group right).text) =
        outcome {} (.cycling [])
          (multiply.writeText (absolute.text ++ "(-1)") (Negated.group right).text) ∧
      ∃ value, (outcome {} (.cycling [])
        (divide.writeText left.text ("-" ++ (Negated.group right).text))).1 = .ok value := by
  let left := PlainExpression.ofOperand "1" (.ofNumber "1" one) (by decide +kernel) rfl
    (by decide) (by decide)
  let right := PlainExpression.ofOperand "2" (.ofNumber "2" two) (by decide +kernel) rfl
    (by decide) (by decide)
  have workable : ({} : Settings).Workable := ⟨trivial, trivial⟩
  obtain ⟨sums, -, quotients, calls, returns⟩ :=
    outcome_negation {} (.cycling []) left (.group right)
  exact ⟨left, right, rfl, rfl, by decide, by decide, by decide, by decide, workable,
    sums add (by decide), quotients divide (by decide), calls absolute (by decide) (by decide),
    returns workable _⟩

end Calculator

end Reckoner
