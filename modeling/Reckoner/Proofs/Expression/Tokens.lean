import Reckoner.Proofs.Expression.Basic
import Reckoner.Proofs.Grammar
import Reckoner.Proofs.Lexeme

/-!
# The tokens of an expression

The text of an expression is read as the tokens that its lexemes stand for, and those tokens derive
the expression's tree. What an expression's tokens end with is always an operand or closes one, so
the operator, unit or parenthesis behind them is read as such.
-/

set_option autoImplicit false

namespace Reckoner

namespace Token

def function (name : String) : Token := ⟨name, .function, none⟩

def unit (name : String) : Token := ⟨name, .unit, none⟩

def name (text : String) : Token := ⟨text, .name, none⟩

theorem ofWord_of_name {word : String} (isName : (ofWord word).kind = .name) :
    ofWord word = name word := by
  revert isName
  simp only [ofWord, name]
  split
  · simp
  · split
    · simp
    · simp

/-- Sequences that end with an operand or with what closes one. -/
def EndOperand (tokens : List Token) : Prop :=
  ∃ token, tokens.getLast? = some token ∧ isUnaryAfter (some token) = false

theorem endOperand_append (tokens : List Token) {others : List Token} (ends : EndOperand others) :
    EndOperand (tokens ++ others) := by
  obtain ⟨token, last, closed⟩ := ends
  exact ⟨token, by simp [last], closed⟩

theorem endOperand_cons (token : Token) {others : List Token} (ends : EndOperand others) :
    EndOperand (token :: others) :=
  endOperand_append [token] ends

theorem not_isUnaryAfter_getLast? {tokens : List Token} (ends : EndOperand tokens)
    (previous : Option Token) : isUnaryAfter (tokens.getLast?.or previous) = false := by
  obtain ⟨token, last, closed⟩ := ends
  simpa [last] using closed

theorem allReadBack_group {tokens : List Token} (back : AllReadBack (some leftParen) tokens)
    (ends : EndOperand tokens) (previous : Option Token) :
    AllReadBack previous (leftParen :: tokens ++ [rightParen]) := by
  have closed := not_isUnaryAfter_getLast? ends (some leftParen)
  refine ⟨readsBack_leftParen previous, allReadBack_append back ⟨readsBack_rightParen ?_, trivial⟩⟩
  cases last : tokens.getLast?.or (some leftParen) with
  | none => rfl
  | some token =>
    rw [last] at closed
    simp only [isUnaryAfter, Bool.or_eq_false_iff] at closed
    simpa using closed.1.1

theorem endOperand_group (tokens : List Token) :
    EndOperand (leftParen :: tokens ++ [rightParen]) :=
  endOperand_append (leftParen :: tokens) ⟨rightParen, rfl, rfl⟩

theorem allReadBack_operator {text : String} (isOperator : text ∈ operatorTexts)
    {tokens others : List Token} {previous : Option Token} (back : AllReadBack previous tokens)
    (ends : EndOperand tokens) (following : AllReadBack (some (operator text)) others) :
    AllReadBack previous (tokens ++ operator text :: others) :=
  allReadBack_append back
    ⟨readsBack_operator isOperator (not_isUnaryAfter_getLast? ends previous), following⟩

end Token

namespace Operation

theorem text_mem_of_isBinary {operation : Operation} (isBinary : operation.isBinary = true) :
    operation.text ∈ Token.operatorTexts := by
  cases operation <;> simp_all [Operation.isBinary, text, Token.operatorTexts]

/-- Binary operations group as sums, products or powers. -/
theorem precedence_of_isBinary {operation : Operation} (isBinary : operation.isBinary = true) :
    1 ≤ (Token.operator operation.text).precedence ∧
      (Token.operator operation.text).precedence ≤ 4 := by
  cases operation <;> simp_all [Operation.isBinary] <;> decide

theorem isWord_of_isFunction {operation : Operation} (isFunction : operation.isFunction = true) :
    Text.isWord operation.text = true ∧
      Token.ofWord operation.text = Token.function operation.text := by
  cases operation <;> simp_all [Operation.isFunction, isTrigonometric] <;> decide

end Operation

theorem ByteUnit.isWord_name (unit : ByteUnit) :
    Text.isWord unit.name = true ∧ Token.ofWord unit.name = Token.unit unit.name := by
  cases unit <;> decide

namespace VariableName

theorem ofWord_text (name : VariableName) : Token.ofWord name.text = Token.name name.text :=
  Token.ofWord_of_name name.isName

theorem text_ne_empty (name : VariableName) : name.text.isEmpty = false :=
  Text.isEmpty_of_isWord name.isWord

theorem readsBack (name : VariableName) (previous : Option Token) :
    Token.ReadsBack previous (Token.name name.text) := by
  have back := Token.readsBack_word name.isWord (by rw [name.ofWord_text]; rfl) previous
  rwa [name.ofWord_text] at back

end VariableName

theorem Derives.ofOperation {operation : Operation} (isBinary : operation.isBinary = true)
    {leftTokens rightTokens : List Token} {left right : Tree} (leftDerived : Derives 7 leftTokens left)
    (rightDerived : Derives 7 rightTokens right) :
    Derives (Token.operator operation.text).precedence
      (leftTokens ++ .operator operation.text :: rightTokens)
      (.binary (.operator operation.text) left right) := by
  obtain ⟨least, most⟩ := Operation.precedence_of_isBinary isBinary
  exact .binary rfl rfl least most (leftDerived.mono (by omega)) (rightDerived.mono (by omega))

namespace Expression

def tokens : Expression → List Token
  | .numeral digits _ => [.ofNumber (String.ofList digits.chars) (digits.toFloat false)]
  | signed sign digits _ =>
    .leftParen :: [.ofNumber (String.ofList (sign.char :: digits.chars))
      (digits.toFloat (sign = .minus))] ++ [.rightParen]
  | reference name => [.name name.text]
  | binary operation _ left right =>
    .leftParen :: (left.tokens ++ .operator operation.text :: right.tokens) ++ [.rightParen]
  | factorial operand => .leftParen :: (operand.tokens ++ [.operator "!"]) ++ [.rightParen]
  | call operation _ argument =>
    .leftParen :: (.function operation.text :: (.leftParen :: argument.tokens ++ [.rightParen])) ++
      [.rightParen]
  | measured operand unit => .leftParen :: (operand.tokens ++ [.unit unit.name]) ++ [.rightParen]
  | assignment name source =>
    .leftParen :: ([.name name.text] ++ .operator "=" :: source.tokens) ++ [.rightParen]

def tree : Expression → Tree
  | .numeral digits _ =>
    .leaf (.ofNumber (String.ofList digits.chars) (digits.toFloat false))
  | signed sign digits _ =>
    .leaf (.ofNumber (String.ofList (sign.char :: digits.chars)) (digits.toFloat (sign = .minus)))
  | reference name => .leaf (.name name.text)
  | binary operation _ left right => .binary (.operator operation.text) left.tree right.tree
  | factorial operand => .unary (.operator "!") operand.tree
  | call operation _ argument => .unary (.function operation.text) argument.tree
  | measured operand unit => .unary (.unit unit.name) operand.tree
  | assignment name source => .binary (.operator "=") (.leaf (.name name.text)) source.tree

theorem texts_tokens (expression : Expression) :
    expression.tokens.map Token.text = expression.lexemes := by
  induction expression with
  | numeral digits written => rfl
  | signed sign digits written => rfl
  | reference name => rfl
  | binary operation isBinary left right leftInner rightInner =>
    simp [tokens, lexemes, leftInner, rightInner, Token.leftParen, Token.rightParen,
      Token.operator]
  | factorial operand inner =>
    simp [tokens, lexemes, inner, Token.leftParen, Token.rightParen, Token.operator]
  | call operation isFunction argument inner =>
    simp [tokens, lexemes, inner, Token.leftParen, Token.rightParen, Token.function]
  | measured operand unit inner =>
    simp [tokens, lexemes, inner, Token.leftParen, Token.rightParen, Token.unit]
  | assignment name source inner =>
    simp [tokens, lexemes, inner, Token.leftParen, Token.rightParen, Token.operator, Token.name]

theorem endOperand_tokens (expression : Expression) : Token.EndOperand expression.tokens := by
  cases expression with
  | numeral digits written => exact ⟨_, rfl, rfl⟩
  | reference name => exact ⟨_, rfl, rfl⟩
  | _ => exact Token.endOperand_group _

theorem allReadBack_tokens (expression : Expression) (previous : Option Token) :
    Token.AllReadBack previous expression.tokens := by
  induction expression generalizing previous with
  | numeral digits written => exact ⟨Token.readsBack_numeral written previous, trivial⟩
  | signed sign digits written =>
    have inside : Token.AllReadBack (some .leftParen) [_] :=
      ⟨Token.readsBack_signed written sign rfl, trivial⟩
    exact Token.allReadBack_group inside ⟨_, rfl, rfl⟩ previous
  | reference name => exact ⟨name.readsBack previous, trivial⟩
  | binary operation isBinary left right leftInner rightInner =>
    have inside := Token.allReadBack_operator (Operation.text_mem_of_isBinary isBinary)
      (leftInner (some .leftParen)) left.endOperand_tokens (rightInner _)
    exact Token.allReadBack_group inside
      (Token.endOperand_append _ (Token.endOperand_cons _ right.endOperand_tokens)) previous
  | factorial operand inner =>
    have inside := @Token.allReadBack_operator "!" (by decide) _ [] _ (inner (some .leftParen))
      operand.endOperand_tokens trivial
    exact Token.allReadBack_group inside (Token.endOperand_append _ ⟨_, rfl, rfl⟩) previous
  | call operation isFunction argument inner =>
    obtain ⟨isWord, shape⟩ := Operation.isWord_of_isFunction isFunction
    have name := Token.readsBack_word isWord (by rw [shape]; rfl) (some .leftParen)
    rw [shape] at name
    have argumentBack := Token.allReadBack_group (inner (some .leftParen))
      argument.endOperand_tokens (some (.function operation.text))
    have inside : Token.AllReadBack (some .leftParen) (_ :: _) := ⟨name, argumentBack⟩
    exact Token.allReadBack_group inside
      (Token.endOperand_cons _ (Token.endOperand_group _)) previous
  | measured operand unit inner =>
    obtain ⟨isWord, shape⟩ := unit.isWord_name
    have name := Token.readsBack_word isWord (by rw [shape]; rfl)
      (operand.tokens.getLast?.or (some .leftParen))
    rw [shape] at name
    have inside := @Token.allReadBack_append _ _ [_] (inner (some .leftParen))
      ⟨name, trivial⟩
    exact Token.allReadBack_group inside (Token.endOperand_append _ ⟨_, rfl, rfl⟩) previous
  | assignment name source inner =>
    have target : Token.AllReadBack (some .leftParen) [Token.name name.text] :=
      ⟨name.readsBack _, trivial⟩
    have inside := @Token.allReadBack_operator "=" (by decide) _ _ _ target ⟨_, rfl, rfl⟩
      (inner _)
    exact Token.allReadBack_group inside
      (Token.endOperand_append _ (Token.endOperand_cons _ source.endOperand_tokens)) previous

theorem tokenize_text (expression : Expression) : tokenize expression.text = expression.tokens := by
  rw [text, ← expression.texts_tokens]
  exact Token.tokenize_intercalate (expression.allReadBack_tokens none)

theorem derives (expression : Expression) : Derives 7 expression.tokens expression.tree := by
  induction expression with
  | numeral digits written =>
    have nonempty : (String.ofList digits.chars).isEmpty = false := by
      obtain ⟨first, others, shape, -⟩ := digits.chars_head written
      simp [shape]
    exact .operand rfl nonempty
  | signed sign digits written =>
    exact .group rfl rfl rfl ((Derives.operand rfl (by simp [Token.ofNumber])).mono (by decide))
  | reference name => exact .operand rfl name.text_ne_empty
  | binary operation isBinary left right leftInner rightInner =>
    have least := (Operation.precedence_of_isBinary isBinary).1
    exact .group rfl rfl rfl ((Derives.ofOperation isBinary leftInner rightInner).mono least)
  | factorial operand inner =>
    exact .group rfl rfl rfl ((Derives.factorial rfl rfl (inner.mono (by decide))).mono (by decide))
  | call operation isFunction argument inner =>
    have nonempty := Text.isEmpty_of_isWord (Operation.isWord_of_isFunction isFunction).1
    have inside := @Derives.group .leftParen .rightParen _ _ rfl rfl rfl
      (inner.mono (by decide))
    exact .group rfl rfl rfl ((Derives.call rfl nonempty inside.loosen).mono (by decide))
  | measured operand unit inner =>
    have nonempty := Text.isEmpty_of_isWord unit.isWord_name.1
    exact .group rfl rfl rfl ((Derives.measured rfl nonempty inner).mono (by decide))
  | assignment name source inner =>
    have target : Derives 1 [Token.name name.text] (.leaf (.name name.text)) :=
      (Derives.operand rfl name.text_ne_empty).mono (by decide)
    exact .group rfl rfl rfl (Derives.binary rfl rfl (by decide) (by decide) target
      (inner.mono (by decide)))

end Expression

end Reckoner
