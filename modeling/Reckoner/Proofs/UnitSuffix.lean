import Reckoner.Proofs.Decimal.Absolute
import Reckoner.Proofs.Negation

/-!
# What a byte unit measures

A byte unit is emitted as it is met, while a function and a factorial still wait. It measures what
stands directly in front of it: after a call the parenthesis and not the function's result, and
after a factorial the operand that the factorial is then taken of. For the absolute value this makes
no difference, since a rounding keeps the sign; for a square root and a factorial it does.
-/

set_option autoImplicit false

namespace Reckoner

open Binary64

/-! ## Reading a unit or a factorial behind a text -/

theorem tokenize_unit (text : String) (unit : ByteUnit) :
    tokenize (text ++ " " ++ unit.name) = tokenize text ++ [.unit unit.name] := by
  obtain ⟨word, isToken⟩ := unit.isWord_name
  have whole : (text ++ " " ++ unit.name).toList =
      text.toList ++ ' ' :: (unit.name.toList ++ []) := by
    simp
  have stops : Stops (' ' :: (unit.name.toList ++ [])) := stops_cons (by decide) _
  rw [Piece.tokenize_eq_read, whole, Piece.read_append stops, Piece.read_blank (by decide),
    Piece.read_word word stops_nil, isToken, Piece.read_nil]
  rfl

theorem tokenize_factorial (text : String) :
    tokenize (text ++ "!") = tokenize text ++ [.operator "!"] := by
  have whole : (text ++ "!").toList = text.toList ++ '!' :: [] := by
    simp
  have stops : Stops ['!'] := stops_cons (by decide) _
  rw [Piece.tokenize_eq_read, whole, Piece.read_append stops, Piece.read_operator (by decide),
    Piece.read_nil]
  rfl

theorem Derives.toPostfix_factorial_unit {tokens : List Token} {tree : Tree}
    (derived : Derives 7 tokens tree) (unit : ByteUnit) :
    toPostfix (tokens ++ [.operator "!"] ++ [.unit unit.name]) =
      (Tree.unary (.operator "!") (.unary (.unit unit.name) tree)).postorder := by
  have emitted := derived.convert_closed [] []
  have waits := @Conversion.take_operator tree.postorder [] (.operator "!") [] rfl rfl (by simp)
    (by simp)
  have nonempty := Text.isEmpty_of_isWord unit.isWord_name.1
  have measured := @Conversion.take_unit tree.postorder [.operator "!"] (.unit unit.name) rfl
    nonempty
  simp only [List.append_nil, List.nil_append] at emitted waits
  simp only [toPostfix, Conversion.run, List.foldl_append, List.foldl_cons, List.foldl_nil, emitted,
    waits, measured]
  rfl

namespace PlainExpression

theorem plain_of_mem_group (expression : PlainExpression) {token : Token}
    (member : token ∈ Token.leftParen :: tokenize expression.text ++ [.rightParen]) :
    token.text ≠ assignmentText ∧ token.text ≠ randomText := by
  rcases List.mem_append.1 member with inside | closing
  · rcases List.mem_cons.1 inside with rfl | argument
    · decide
    · exact expression.plain token argument
  · obtain rfl := List.mem_singleton.1 closing
    decide

/-- An expression in parentheses with a unit behind them. -/
def measured (expression : PlainExpression) (unit : ByteUnit) : PlainExpression where
  text := "(" ++ expression.text ++ ")" ++ " " ++ unit.name
  tree := .unary (.unit unit.name) expression.tree
  derived := by
    have nonempty := Text.isEmpty_of_isWord unit.isWord_name.1
    rw [tokenize_unit, expression.derived.tokenize_group]
    exact (Derives.measured rfl nonempty expression.derived.grouped).mono (by decide)
  plain := by
    rw [tokenize_unit, expression.derived.tokenize_group]
    intro token member
    rcases List.mem_append.1 member with inside | last
    · exact expression.plain_of_mem_group inside
    · obtain rfl := List.mem_singleton.1 last
      cases unit <;> decide

section

variable (function : Operation) (isFunction : function.isFunction = true)
  (noRandom : function ≠ .random) (argument : PlainExpression)

include isFunction noRandom

theorem tokenize_call :
    tokenize (function.text ++ "(" ++ argument.text ++ ")") =
      .function function.text :: (.leftParen :: tokenize argument.text ++ [.rightParen]) :=
  (Negated.call function isFunction noRandom argument).read none

/-- A unit behind a call is a unit behind its argument. -/
theorem derives_unit_of_call (unit : ByteUnit) :
    Derives 1 (tokenize (function.text ++ "(" ++ argument.text ++ ")" ++ " " ++ unit.name))
      (.unary (.function function.text) (.unary (.unit unit.name) argument.tree)) := by
  have isUnit := Text.isEmpty_of_isWord unit.isWord_name.1
  have isMeasured := @Derives.measured (.unit unit.name) _ _ rfl isUnit argument.derived.grouped
  have isNamed := Text.isEmpty_of_isWord (Operation.isWord_of_isFunction isFunction).1
  rw [tokenize_unit, tokenize_call function isFunction noRandom argument]
  exact (Derives.call rfl isNamed isMeasured.loosen).mono (by decide)

end

/-- A function called with an expression. -/
def called (function : Operation) (isFunction : function.isFunction = true)
    (noRandom : function ≠ .random) (argument : PlainExpression) : PlainExpression where
  text := function.text ++ "(" ++ argument.text ++ ")"
  tree := .unary (.function function.text) argument.tree
  derived := by
    rw [tokenize_call function isFunction noRandom argument]
    exact (Negated.call function isFunction noRandom argument).derives.mono (by decide)
  plain := by
    rw [tokenize_call function isFunction noRandom argument]
    intro token member
    rcases List.mem_cons.1 member with rfl | inside
    · exact Operation.text_ne_of_isFunction isFunction noRandom
    · exact argument.plain_of_mem_group inside

end PlainExpression

/-! ## Units and absolute values -/

namespace ByteUnit

theorem abs_bytes (unit : ByteUnit) : unit.bytes.abs = unit.bytes := by
  cases unit <;> rfl

theorem compute_name (settings : Settings) (unit : ByteUnit) (x y : Float) :
    settings.compute unit.name x y = y * unit.bytes := by
  cases unit <;> rfl

end ByteUnit

namespace Settings

theorem compute_absolute (settings : Settings) (x y : Float) :
    settings.compute Operation.absolute.text x y = y.abs := rfl

/-- Whether the operand is measured before or after its absolute value is taken makes no difference:
the roundings on the way keep the sign and give again what they gave. -/
theorem applied_unit_absolute (settings : Settings) (unit : ByteUnit) (operand : Float) :
    (settings.applied unit.name zero operand >>= settings.applied Operation.absolute.text zero) =
      (settings.applied Operation.absolute.text zero operand >>=
        settings.applied unit.name zero) := by
  unfold applied
  simp only [compute_absolute, ByteUnit.compute_name]
  cases settings.precision.round zero with
  | error error => rfl
  | ok nothing =>
    cases rounded : settings.precision.round operand with
    | error error => rfl
    | ok number =>
      have again := Precision.round_of_ok rounded
      have positive : settings.precision.round number.abs = .ok number.abs := by
        rw [Precision.round_abs, again]
        rfl
      have product : number.abs * unit.bytes = (number * unit.bytes).abs := by
        rw [Binary64.abs_mul, unit.abs_bytes]
      simp only [bind, Except.bind, positive, product, Precision.round_abs]
      cases measured : settings.precision.round (number * unit.bytes) with
      | error error => rfl
      | ok result =>
        simp only [Except.map, Precision.round_of_ok measured]

end Settings

namespace Tree

theorem value_unit_absolute (settings : Settings) (table : Variables) (unit : ByteUnit)
    (operand : Tree) :
    (unary (.function Operation.absolute.text) (unary (.unit unit.name) operand)).value settings
        table =
      (unary (.unit unit.name) (unary (.function Operation.absolute.text) operand)).value settings
        table := by
  have names (text : String) :
      (Token.function text).text = text ∧ (Token.unit text).text = text := ⟨rfl, rfl⟩
  simp only [value, names]
  cases operand.value settings table with
  | error error => rfl
  | ok number => exact settings.applied_unit_absolute unit number

end Tree

/-! ## What the unit belongs to -/

namespace Calculator

open Operation

section

variable (calculator : Calculator) (random : RandomSource) (expression : PlainExpression)
  (unit : ByteUnit)

theorem outcome_unit_of_call {function : Operation} (isFunction : function.isFunction = true)
    (noRandom : function ≠ .random) :
    calculator.outcome random
        (function.text ++ "(" ++ expression.text ++ ")" ++ " " ++ unit.name) =
      calculator.outcome random
        (function.text ++ "(" ++ (expression.measured unit).text ++ ")") := by
  let around := PlainExpression.called function isFunction noRandom (expression.measured unit)
  have direct := PlainExpression.derives_unit_of_call function isFunction noRandom expression unit
  exact calculator.outcome_congr random around.isPlain direct around.derived

theorem outcome_unit_of_factorial :
    calculator.outcome random ("(" ++ expression.text ++ ")" ++ "!" ++ " " ++ unit.name) =
      calculator.outcome random ("(" ++ (expression.measured unit).text ++ ")" ++ "!") := by
  have direct : toPostfix (tokenize ("(" ++ expression.text ++ ")" ++ "!" ++ " " ++ unit.name)) =
      (Tree.unary (.operator "!") (expression.measured unit).tree).postorder := by
    rw [tokenize_unit, tokenize_factorial, expression.derived.tokenize_group]
    exact expression.derived.grouped.toPostfix_factorial_unit unit
  have around : Derives 1 (tokenize ("(" ++ (expression.measured unit).text ++ ")" ++ "!"))
      (.unary (.operator "!") (expression.measured unit).tree) := by
    have operand := (expression.measured unit).derived.grouped.mono (show 5 ≤ 7 by decide)
    rw [tokenize_factorial, (expression.measured unit).derived.tokenize_group]
    exact (Derives.factorial rfl rfl operand).mono (by decide)
  have plain : (Tree.unary (.operator "!") (expression.measured unit).tree).IsPlain :=
    .unary rfl rfl (by decide) (by decide) (expression.measured unit).isPlain
  rw [calculator.outcome_of_postorder random direct plain,
    calculator.outcome_of_derives random around plain]

theorem outcome_unit_of_absolute :
    calculator.outcome random
        (absolute.text ++ "(" ++ expression.text ++ ")" ++ " " ++ unit.name) =
      calculator.outcome random
        ("(" ++ (absolute.text ++ "(" ++ expression.text ++ ")") ++ ")" ++ " " ++ unit.name) := by
  let call := PlainExpression.called absolute rfl (by decide) expression
  let around := PlainExpression.called absolute rfl (by decide) (expression.measured unit)
  have direct := PlainExpression.derives_unit_of_call absolute rfl (by decide) expression unit
  have same := Tree.value_unit_absolute calculator.settings calculator.table unit expression.tree
  have converted := calculator.outcome_of_derives random direct around.isPlain
  have measured := calculator.outcome_of_derives random (call.measured unit).derived
    (call.measured unit).isPlain
  rw [Tree.result, same] at converted
  exact converted.trans measured.symm

/-- What a byte unit measures. Behind a call it is as if the unit stood behind the argument, and
behind a factorial as if it stood in front of the mark. An absolute value may as well be taken
first. Under workable settings there is a value in every case. -/
theorem outcome_unit :
    (∀ function : Operation, function.isFunction = true → function ≠ .random →
      calculator.outcome random
          (function.text ++ "(" ++ expression.text ++ ")" ++ " " ++ unit.name) =
        calculator.outcome random
          (function.text ++ "(" ++ ("(" ++ expression.text ++ ")" ++ " " ++ unit.name) ++ ")")) ∧
    calculator.outcome random ("(" ++ expression.text ++ ")" ++ "!" ++ " " ++ unit.name) =
      calculator.outcome random
        ("(" ++ ("(" ++ expression.text ++ ")" ++ " " ++ unit.name) ++ ")" ++ "!") ∧
    calculator.outcome random
        (absolute.text ++ "(" ++ expression.text ++ ")" ++ " " ++ unit.name) =
      calculator.outcome random
        ("(" ++ (absolute.text ++ "(" ++ expression.text ++ ")") ++ ")" ++ " " ++ unit.name) ∧
    (calculator.settings.Workable →
      ∀ text, ∃ value, (calculator.outcome random text).1 = .ok value) := by
  refine ⟨?_, ?_, ?_, calculator.exists_outcome random⟩
  · intro function isFunction noRandom
    exact calculator.outcome_unit_of_call random expression unit isFunction noRandom
  · exact calculator.outcome_unit_of_factorial random expression unit
  · exact calculator.outcome_unit_of_absolute random expression unit

end

/-- The square root of sixteen megabytes. -/
theorem outcome_unit_of_sixteen :
    ∃ expression : PlainExpression, expression.text = "16" ∧ squareRoot.isFunction = true ∧
      squareRoot ≠ .random ∧ ({} : Settings).Workable ∧
      outcome {} (.cycling [])
          (squareRoot.text ++ "(" ++ expression.text ++ ")" ++ " " ++ ByteUnit.mega.name) =
        outcome {} (.cycling []) (squareRoot.text ++ "(" ++
          ("(" ++ expression.text ++ ")" ++ " " ++ ByteUnit.mega.name) ++ ")") ∧
      outcome {} (.cycling [])
          ("(" ++ expression.text ++ ")" ++ "!" ++ " " ++ ByteUnit.mega.name) =
        outcome {} (.cycling [])
          ("(" ++ ("(" ++ expression.text ++ ")" ++ " " ++ ByteUnit.mega.name) ++ ")" ++ "!") ∧
      ∃ value, (outcome {} (.cycling [])
        (squareRoot.text ++ "(" ++ expression.text ++ ")" ++ " " ++ ByteUnit.mega.name)).1 =
          .ok value := by
  let sixteen := PlainExpression.ofOperand "16" (.ofNumber "16" (ofInt 16)) (by decide +kernel) rfl
    (by decide) (by decide)
  have workable : ({} : Settings).Workable := ⟨trivial, trivial⟩
  obtain ⟨calls, factorial, -, returns⟩ := outcome_unit {} (.cycling []) sixteen .mega
  exact ⟨sixteen, rfl, by decide, by decide, workable, calls squareRoot (by decide) (by decide),
    factorial, returns workable _⟩

/-- A unit behind a square root or a factorial, and behind the same in parentheses. -/
theorem outcome_unit_apart :
    ∃ sixteenText threeText : PlainExpression,
      sixteenText.text = "16" ∧ threeText.text = "3" ∧
      (outcome {} (.cycling []) ("sqrt(" ++ sixteenText.text ++ ") mb")).1.toOption =
        some (ofInt 4096) ∧
      (outcome {} (.cycling []) ("(sqrt(" ++ sixteenText.text ++ ")) mb")).1.toOption =
        some (ofInt 4194304) ∧
      (outcome {} (.cycling []) ("(" ++ threeText.text ++ ")! mb")).1.toOption =
        some (infinity false) ∧
      (outcome {} (.cycling []) ("((" ++ threeText.text ++ ")!) mb")).1.toOption =
        some (ofInt 6291456) ∧
      ofInt 4096 ≠ ofInt 4194304 ∧ infinity false ≠ ofInt 6291456 := by
  refine ⟨.ofOperand "16" (.ofNumber "16" (ofInt 16)) ?_ rfl ?_ ?_,
    .ofOperand "3" (.ofNumber "3" (ofInt 3)) ?_ rfl ?_ ?_, rfl, rfl, ?_⟩
  all_goals decide +kernel

end Calculator

end Reckoner
