import Reckoner.Proofs.Expression.Tokens
import Reckoner.Proofs.Plain

/-!
# Reading a unary minus

A unary minus in front of a name, a call or a parenthesis is read as a multiplication by minus one,
and that multiplication binds as any other. After a sum or a difference it is the right operand. A
product, a quotient or a power takes minus one for its right operand, and so does a function, and the
result is multiplied.
-/

set_option autoImplicit false

namespace Reckoner

open Text Binary64

namespace Operation

theorem text_ne_of_isFunction {function : Operation} (isFunction : function.isFunction = true)
    (noRandom : function ≠ .random) :
    function.text ≠ assignmentText ∧ function.text ≠ randomText := by
  cases function <;> simp_all [Operation.isFunction, isTrigonometric] <;> decide

end Operation

/-! ## Operands of a unary minus -/

/-- What a unary minus can stand in front of without being part of a numeral. -/
inductive Negated where
  | reference (name : VariableName)
  | call (function : Operation) (isFunction : function.isFunction = true)
      (noRandom : function ≠ .random) (argument : PlainExpression)
  | group (expression : PlainExpression)

namespace Negated

def text : Negated → String
  | reference name => name.text
  | call function _ _ argument => function.text ++ "(" ++ argument.text ++ ")"
  | group expression => "(" ++ expression.text ++ ")"

def tokens : Negated → List Token
  | reference name => [.name name.text]
  | call function _ _ argument =>
    .function function.text :: (.leftParen :: tokenize argument.text ++ [.rightParen])
  | group expression => .leftParen :: tokenize expression.text ++ [.rightParen]

def tree : Negated → Tree
  | reference name => .leaf (.name name.text)
  | call function _ _ argument => .unary (.function function.text) argument.tree
  | group expression => expression.tree

theorem derives (operand : Negated) : Derives 6 operand.tokens operand.tree := by
  cases operand with
  | reference name => exact (Derives.operand rfl name.text_ne_empty).loosen
  | call function isFunction noRandom argument =>
    have nonempty := isEmpty_of_isWord (Operation.isWord_of_isFunction isFunction).1
    exact .call rfl nonempty argument.derived.grouped.loosen
  | group expression => exact expression.derived.grouped.loosen

theorem isPlain (operand : Negated) : operand.tree.IsPlain := by
  cases operand with
  | reference name => exact .leaf rfl name.text_ne_empty fun table => ⟨_, rfl⟩
  | call function isFunction noRandom argument =>
    have pure := Operation.text_ne_of_isFunction isFunction noRandom
    exact .unary rfl rfl pure.1 pure.2 argument.isPlain
  | group expression => exact expression.isPlain

theorem scan_eq_none (operand : Negated) : Numeral.scan operand.text.toList = none := by
  cases operand with
  | reference name =>
    have none := Piece.scan_word name.isWord []
    rwa [List.append_nil] at none
  | call function isFunction noRandom argument =>
    have word := (Operation.isWord_of_isFunction isFunction).1
    have none := Piece.scan_word word ("(" ++ argument.text ++ ")").toList
    simpa [text] using none
  | group expression =>
    have none := Piece.scan_eq_none (c := '(') (by decide) (by decide)
      (expression.text.toList ++ [')'])
    simpa [text] using none

theorem read (operand : Negated) (previous : Option Token) :
    Piece.read previous operand.text.toList = operand.tokens := by
  cases operand with
  | reference name =>
    have alone := name.readsBack previous [] stops_nil
    simpa [text, tokens, Token.name] using alone
  | call function isFunction noRandom argument =>
    obtain ⟨word, isToken⟩ := Operation.isWord_of_isFunction isFunction
    have stops : Stops ('(' :: argument.text.toList ++ [')']) := stops_cons (by decide) _
    have whole : (call function isFunction noRandom argument).text.toList =
        function.text.toList ++ ('(' :: argument.text.toList ++ [')']) := by
      simp [text]
    rw [whole, Piece.read_word word stops, isToken, Piece.read_group rfl argument.derived,
      Piece.read_nil]
    rfl
  | group expression =>
    have whole : (group expression).text.toList = '(' :: expression.text.toList ++ [')'] := by
      simp [text]
    rw [whole, Piece.read_group rfl expression.derived, Piece.read_nil]
    rfl

end Negated

/-! ## Texts with a unary minus -/

namespace Piece

theorem read_minusOne {previous : Option Token} (unary : Token.isUnaryAfter previous = true) :
    read previous "-1".toList = [minusOne] := by
  have written : (Numeral.mk ['1'] none none).IsWritten := by
    refine ⟨?_, nofun, .inl (List.cons_ne_nil _ _), nofun⟩
    intro c member
    rw [List.mem_singleton.1 member]
    decide
  have isOne : (Numeral.mk ['1'] none none).toFloat true = -one := by
    decide +kernel
  have read := read_signed written .minus stops_nil unary
  rw [read_nil, decide_eq_true rfl, isOne] at read
  exact read

end Piece

namespace Operation

variable {operation : Operation}

/-- The text of a binary operation on an expression, which is put in parentheses, and what stands to
the right of the operator. -/
def writeText (operation : Operation) (left right : String) : String :=
  "(" ++ left ++ ") " ++ operation.text ++ " " ++ right

theorem tokenize_writeText (isBinary : operation.isBinary = true) {left : String} {tree : Tree}
    (derived : Derives 1 (tokenize left) tree) (right : String) :
    tokenize (operation.writeText left right) =
      (.leftParen :: tokenize left ++ [.rightParen]) ++ .operator operation.text ::
        Piece.read (some (.operator operation.text)) right.toList := by
  have whole : (operation.writeText left right).toList =
      '(' :: left.toList ++ ')' :: (' ' :: (operation.text.toList ++ ' ' :: right.toList)) := by
    simp [writeText]
  have operator := Token.readsBack_operator (text_mem_of_isBinary isBinary)
    (show Token.isUnaryAfter (some .rightParen) = false from rfl) (' ' :: right.toList)
    (stops_cons (by decide) _)
  have isText : (Token.operator operation.text).text = operation.text := rfl
  rw [isText] at operator
  rw [Piece.tokenize_eq_read, whole, Piece.read_group rfl derived,
    Piece.read_blank (by decide), operator, Piece.read_blank (by decide)]
  simp [Piece.tokenize_eq_read]

theorem isUnaryAfter_text (isBinary : operation.isBinary = true) :
    Token.isUnaryAfter (some (.operator operation.text)) = true := by
  cases operation <;> simp_all [Operation.isBinary] <;> decide

end Operation

namespace Tree

def minusOne : Tree := .leaf Piece.minusOne

def product (left right : Tree) : Tree := .binary (.operator "*") left right

theorem derives_minusOne : Derives 7 [Piece.minusOne] minusOne :=
  .operand rfl (by decide)

theorem isPlain_minusOne : minusOne.IsPlain :=
  .leaf rfl (by decide) fun table => ⟨_, rfl⟩

theorem IsPlain.product {left right : Tree} (leftPlain : left.IsPlain)
    (rightPlain : right.IsPlain) : (left.product right).IsPlain :=
  .binary rfl rfl (by decide) (by decide) leftPlain rightPlain

theorem IsPlain.ofOperation {operation : Operation} (isBinary : operation.isBinary = true)
    {left right : Tree} (leftPlain : left.IsPlain) (rightPlain : right.IsPlain) :
    (Tree.binary (.operator operation.text) left right).IsPlain := by
  cases operation <;> simp_all [Operation.isBinary] <;>
    exact .binary rfl rfl (by decide) (by decide) leftPlain rightPlain

end Tree

namespace Derives

theorem product {leftTokens rightTokens : List Token} {left right : Tree}
    (leftDerived : Derives 3 leftTokens left) (rightDerived : Derives 4 rightTokens right) :
    Derives 3 (leftTokens ++ .operator "*" :: rightTokens) (left.product right) :=
  .binary rfl rfl (by decide) (by decide) leftDerived rightDerived

end Derives

namespace Negated

theorem read_negation (operand : Negated) {previous : Option Token}
    (unary : Token.isUnaryAfter previous = true) :
    Piece.read previous ("-" ++ operand.text).toList =
      Piece.minusOne :: .operator "*" :: operand.tokens := by
  have whole : ("-" ++ operand.text).toList = '-' :: operand.text.toList := by
    simp
  rw [whole, Piece.read_negation unary operand.scan_eq_none, operand.read]

theorem derives_negation (operand : Negated) :
    Derives 1 (tokenize ("-" ++ operand.text)) (Tree.minusOne.product operand.tree) := by
  rw [Piece.tokenize_eq_read, operand.read_negation rfl]
  have left : Derives 3 [Piece.minusOne] Tree.minusOne := Tree.derives_minusOne.mono (by decide)
  exact (left.product (operand.derives.mono (by decide))).mono (by decide)

end Negated

/-! ## What the minus belongs to -/

namespace Operation

variable {operation : Operation}

/-- In parentheses of its own, a negation is the right operand of every operation. -/
theorem derives_grouped_negation (isBinary : operation.isBinary = true) (left : PlainExpression)
    (operand : Negated) :
    Derives 1 (tokenize (operation.writeText left.text ("(-" ++ operand.text ++ ")")))
      (.binary (.operator operation.text) left.tree (Tree.minusOne.product operand.tree)) := by
  have isRight : ("(-" ++ operand.text ++ ")").toList =
      '(' :: ("-" ++ operand.text).toList ++ ')' :: [] := by
    simp
  have inside := operand.derives_negation
  rw [tokenize_writeText isBinary left.derived, isRight, Piece.read_group rfl inside,
    Piece.read_nil]
  exact (Derives.ofOperation isBinary left.derived.grouped inside.grouped).mono
    (precedence_of_isBinary isBinary).1

/-- After a sum or a difference, which binds less than a product, the negation is its operand. -/
theorem derives_negation_of_sum (isBinary : operation.isBinary = true)
    (loose : (Token.operator operation.text).precedence = 2)
    (left : PlainExpression) (operand : Negated) :
    Derives 1 (tokenize (operation.writeText left.text ("-" ++ operand.text)))
      (.binary (.operator operation.text) left.tree (Tree.minusOne.product operand.tree)) := by
  rw [tokenize_writeText isBinary left.derived, operand.read_negation (isUnaryAfter_text isBinary)]
  have right : Derives 3 (Piece.minusOne :: .operator "*" :: operand.tokens)
      (Tree.minusOne.product operand.tree) :=
    (Tree.derives_minusOne.mono (by decide)).product (operand.derives.mono (by decide))
  have whole := @Derives.binary 2 (.operator operation.text) _ _ _ _ rfl loose (by decide)
    (by decide) (left.derived.grouped.mono (by decide)) right
  exact whole.loosen

/-- After a product, a quotient or a power the result is negated and not the operand. -/
theorem derives_negation_of_product (isBinary : operation.isBinary = true)
    (tight : 3 ≤ (Token.operator operation.text).precedence)
    (left : PlainExpression) (operand : Negated) :
    Derives 1 (tokenize (operation.writeText left.text ("-" ++ operand.text)))
      ((Tree.binary (.operator operation.text) left.tree Tree.minusOne).product operand.tree) := by
  rw [tokenize_writeText isBinary left.derived, operand.read_negation (isUnaryAfter_text isBinary)]
  have first := (Derives.ofOperation isBinary left.derived.grouped Tree.derives_minusOne).mono tight
  have whole := first.product (operand.derives.mono (by decide))
  rw [List.append_assoc] at whole
  exact whole.mono (by decide)

theorem derives_writeText_minusOne (isBinary : operation.isBinary = true) (left : PlainExpression) :
    Derives 1 (tokenize (operation.writeText left.text "-1"))
      (.binary (.operator operation.text) left.tree Tree.minusOne) := by
  rw [tokenize_writeText isBinary left.derived, Piece.read_minusOne (isUnaryAfter_text isBinary)]
  exact (Derives.ofOperation isBinary left.derived.grouped Tree.derives_minusOne).mono
    (precedence_of_isBinary isBinary).1

theorem derives_writeText_multiply {text : String} {tree : Tree}
    (derived : Derives 1 (tokenize text) tree) (operand : Negated) :
    Derives 1 (tokenize (multiply.writeText text operand.text)) (tree.product operand.tree) := by
  rw [tokenize_writeText rfl derived, operand.read]
  exact ((derived.grouped.mono (by decide)).product (operand.derives.mono (by decide))).mono
    (by decide)

/-- After the name of a function the result is negated and not the argument. -/
theorem derives_negation_of_call (isFunction : operation.isFunction = true) (operand : Negated) :
    Derives 1 (tokenize (operation.text ++ " -" ++ operand.text))
      ((Tree.unary (.function operation.text) Tree.minusOne).product operand.tree) := by
  obtain ⟨word, isToken⟩ := isWord_of_isFunction isFunction
  have stops : Stops (' ' :: ("-" ++ operand.text).toList) := stops_cons (by decide) _
  have whole : (operation.text ++ " -" ++ operand.text).toList =
      operation.text.toList ++ ' ' :: ("-" ++ operand.text).toList := by
    simp
  have call : Derives 6 [.function operation.text, Piece.minusOne]
      (.unary (.function operation.text) Tree.minusOne) :=
    .call rfl (isEmpty_of_isWord word) Tree.derives_minusOne.loosen
  rw [Piece.tokenize_eq_read, whole, Piece.read_word word stops, isToken,
    Piece.read_blank (by decide), operand.read_negation rfl]
  exact ((call.mono (by decide)).product (operand.derives.mono (by decide))).mono (by decide)

theorem derives_call_minusOne (isFunction : operation.isFunction = true) :
    Derives 1 (tokenize (operation.text ++ "(-1)"))
      (.unary (.function operation.text) Tree.minusOne) := by
  obtain ⟨word, isToken⟩ := isWord_of_isFunction isFunction
  have stops : Stops ('(' :: "-1".toList ++ ')' :: []) := stops_cons (by decide) _
  have whole : (operation.text ++ "(-1)").toList =
      operation.text.toList ++ ('(' :: "-1".toList ++ ')' :: []) := by
    simp
  have inside : Derives 1 [Piece.minusOne] Tree.minusOne := Tree.derives_minusOne.mono (by decide)
  have call : Derives 6 (.function operation.text :: (.leftParen :: [Piece.minusOne] ++
      [.rightParen])) (.unary (.function operation.text) Tree.minusOne) :=
    .call rfl (isEmpty_of_isWord word) inside.grouped.loosen
  rw [Piece.tokenize_eq_read, whole, Piece.read_word word stops, isToken,
    Piece.read_group (Piece.read_minusOne rfl) inside, Piece.read_nil]
  exact call.mono (by decide)

end Operation

end Reckoner
