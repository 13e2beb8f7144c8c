import Reckoner.Proofs.Conversion

/-!
# The grammar of expressions

An expression is a tree of tokens, and `Derives` says which sequences of tokens write it. A level is
the least precedence that an operator outside parentheses may have: assignments, sums, products and
powers group to the left at the levels one to four, factorials follow at five, calls precede at six,
and at seven stand the operands and parentheses with the units behind them. Parentheses may enclose
any expression, also one that needs none.

The conversion to postfix order is followed over a derivation with any operators waiting below it.
What the expression leaves waiting binds at least as tightly as its level, so the next operator of
that level, or the closing parenthesis, releases exactly what belongs to the expression.
-/

set_option autoImplicit false

namespace Reckoner

/-- An expression as a tree of tokens. Functions, factorials and units have one operand. -/
inductive Tree where
  | leaf (token : Token)
  | unary (operator : Token) (operand : Tree)
  | binary (operator : Token) (left right : Tree)
  deriving Repr

namespace Tree

def postorder : Tree → List Token
  | leaf token => [token]
  | unary operator operand => operand.postorder ++ [operator]
  | binary operator left right => left.postorder ++ right.postorder ++ [operator]

end Tree

/-- The sequences of tokens that write a tree, by the least precedence outside parentheses. -/
inductive Derives : Nat → List Token → Tree → Prop where
  | operand {token : Token} :
      token.isOperand = true → token.text.isEmpty = false → Derives 7 [token] (.leaf token)
  | group {opening closing : Token} {tokens : List Token} {tree : Tree} :
      opening.kind = .leftParen → opening.text = "(" → closing.kind = .rightParen →
      Derives 1 tokens tree → Derives 7 (opening :: tokens ++ [closing]) tree
  | measured {unit : Token} {tokens : List Token} {tree : Tree} :
      unit.kind = .unit → unit.text.isEmpty = false → Derives 7 tokens tree →
      Derives 7 (tokens ++ [unit]) (.unary unit tree)
  | call {function : Token} {tokens : List Token} {tree : Tree} :
      function.kind = .function → function.text.isEmpty = false → Derives 6 tokens tree →
      Derives 6 (function :: tokens) (.unary function tree)
  | factorial {mark : Token} {tokens : List Token} {tree : Tree} :
      mark.kind = .operator → mark.text = "!" → Derives 5 tokens tree →
      Derives 5 (tokens ++ [mark]) (.unary mark tree)
  | binary {level : Nat} {operator : Token} {leftTokens rightTokens : List Token}
      {left right : Tree} :
      operator.kind = .operator → operator.precedence = level → 1 ≤ level → level ≤ 4 →
      Derives level leftTokens left → Derives (level + 1) rightTokens right →
      Derives level (leftTokens ++ operator :: rightTokens) (.binary operator left right)
  | loosen {level : Nat} {tokens : List Token} {tree : Tree} :
      Derives (level + 1) tokens tree → Derives level tokens tree

namespace Derives

theorem mono {level lower : Nat} {tokens : List Token} {tree : Tree}
    (derived : Derives level tokens tree) (le : lower ≤ level) : Derives lower tokens tree := by
  obtain ⟨difference, rfl⟩ := Nat.exists_eq_add_of_le le
  induction difference with
  | zero => exact derived
  | succ difference inner => exact inner derived.loosen (Nat.le_add_right _ _)

/-- What is derived does not begin with a closing parenthesis. -/
theorem head {level : Nat} {tokens : List Token} {tree : Tree}
    (derived : Derives level tokens tree) :
    ∃ first rest, tokens = first :: rest ∧ first.kind ≠ .rightParen := by
  induction derived with
  | @operand token isOperand _ =>
    refine ⟨token, [], rfl, ?_⟩
    intro closing
    simp [Token.isOperand, closing] at isOperand
  | @group opening closing tokens tree isOpening _ _ _ _ =>
    exact ⟨opening, tokens ++ [closing], rfl, by simp [isOpening]⟩
  | @measured unit tokens tree _ _ _ inner =>
    obtain ⟨first, rest, shape, kind⟩ := inner
    exact ⟨first, rest ++ [unit], by rw [shape]; rfl, kind⟩
  | @call function tokens tree isFunction _ _ _ =>
    exact ⟨function, tokens, rfl, by simp [isFunction]⟩
  | @factorial mark tokens tree _ _ _ inner =>
    obtain ⟨first, rest, shape, kind⟩ := inner
    exact ⟨first, rest ++ [mark], by rw [shape]; rfl, kind⟩
  | @binary level operator leftTokens rightTokens left right _ _ _ _ _ _ leftInner _ =>
    obtain ⟨first, rest, shape, kind⟩ := leftInner
    exact ⟨first, rest ++ operator :: rightTokens, by rw [shape]; rfl, kind⟩
  | loosen _ inner => exact inner

/-- What is derived does not end with an opening parenthesis. -/
theorem getLast {level : Nat} {tokens : List Token} {tree : Tree}
    (derived : Derives level tokens tree) :
    ∃ last, tokens.getLast? = some last ∧ last.kind ≠ .leftParen := by
  induction derived with
  | @operand token isOperand _ =>
    refine ⟨token, rfl, ?_⟩
    intro opening
    simp [Token.isOperand, opening] at isOperand
  | @group opening closing tokens tree _ _ isClosing _ _ =>
    exact ⟨closing, by rw [List.getLast?_append]; rfl, by simp [isClosing]⟩
  | @measured unit tokens tree isUnit _ _ _ =>
    exact ⟨unit, by rw [List.getLast?_append]; rfl, by simp [isUnit]⟩
  | @call function tokens tree _ _ _ inner =>
    obtain ⟨last, isLast, kind⟩ := inner
    exact ⟨last, by rw [List.getLast?_cons, isLast]; rfl, kind⟩
  | @factorial mark tokens tree isOperator _ _ _ =>
    exact ⟨mark, by rw [List.getLast?_append]; rfl, by simp [isOperator]⟩
  | @binary level operator leftTokens rightTokens left right _ _ _ _ _ _ _ rightInner =>
    obtain ⟨last, isLast, kind⟩ := rightInner
    exact ⟨last, by rw [List.getLast?_append, List.getLast?_cons, isLast]; rfl, kind⟩
  | loosen _ inner => exact inner

theorem mem_of_mem_postorder {level : Nat} {tokens : List Token} {tree : Tree}
    (derived : Derives level tokens tree) {token : Token} (member : token ∈ tree.postorder) : token ∈ tokens := by
  induction derived with
  | operand _ _ => exact member
  | group _ _ _ _ inner =>
    exact List.mem_append_left _ (List.mem_cons_of_mem _ (inner member))
  | measured _ _ _ inner =>
    rcases List.mem_append.1 member with inside | last
    · exact List.mem_append_left _ (inner inside)
    · exact List.mem_append_right _ last
  | call _ _ _ inner =>
    rcases List.mem_append.1 member with inside | last
    · exact List.mem_cons_of_mem _ (inner inside)
    · obtain rfl := List.mem_singleton.1 last
      exact List.mem_cons_self
  | factorial _ _ _ inner =>
    rcases List.mem_append.1 member with inside | last
    · exact List.mem_append_left _ (inner inside)
    · exact List.mem_append_right _ last
  | binary _ _ _ _ _ _ leftInner rightInner =>
    rcases List.mem_append.1 member with inside | last
    · rcases List.mem_append.1 inside with left | right
      · exact List.mem_append_left _ (leftInner left)
      · exact List.mem_append_right _ (List.mem_cons_of_mem _ (rightInner right))
    · obtain rfl := List.mem_singleton.1 last
      exact List.mem_append_right _ List.mem_cons_self
  | loosen _ inner => exact inner member

end Derives

namespace Token

theorem precedence_le (token : Token) : token.precedence ≤ 6 := by
  simp only [precedence]
  split
  · exact Nat.le_refl _
  · simp only [textPrecedence]
    split <;> decide

theorem precedence_of_function {token : Token} (isFunction : token.kind = .function) :
    token.precedence = 6 := by
  simp [precedence, isFunction]

theorem precedence_of_leftParen {token : Token} (isParen : token.kind = .leftParen)
    (text : token.text = "(") : token.precedence = 0 := by
  simp [precedence, isParen, text, textPrecedence]

theorem precedence_of_mark {token : Token} (isOperator : token.kind = .operator)
    (text : token.text = "!") : token.precedence = 5 := by
  simp [precedence, isOperator, text, textPrecedence]

theorem text_ne_of_precedence {token : Token} (isOperator : token.kind = .operator)
    (positive : 1 ≤ token.precedence) : token.text.isEmpty = false := by
  apply Bool.eq_false_iff.2
  intro empty
  rw [String.isEmpty_iff] at empty
  simp [precedence, isOperator, empty, textPrecedence] at positive

end Token

namespace Conversion

variable {output waiting : List Token}

theorem take_leftParen {token : Token} (isParen : token.kind = .leftParen)
    (text : token.text = "(") :
    take ⟨output, waiting⟩ token = ⟨output, token :: waiting⟩ := by
  simp [take, isParen, wait, text]

theorem take_function {token : Token} (isFunction : token.kind = .function)
    (text : token.text.isEmpty = false) :
    take ⟨output, waiting⟩ token = ⟨output, token :: waiting⟩ := by
  simp [take, isFunction, wait, text]

theorem take_unit {token : Token} (isUnit : token.kind = .unit)
    (text : token.text.isEmpty = false) :
    take ⟨output, waiting⟩ token = ⟨output ++ [token], waiting⟩ := by
  simp [take, isUnit, emit, TokenSequence.add, text]

theorem take_operand {token : Token} (isOperand : token.isOperand = true)
    (text : token.text.isEmpty = false) :
    take ⟨output, waiting⟩ token = ⟨output ++ [token], waiting⟩ := by
  simp only [Token.isOperand, Bool.or_eq_true, decide_eq_true_eq] at isOperand
  rcases isOperand with (kind | kind) | kind
  · simp [take, kind, emit, TokenSequence.add, text]
  · simp [take, kind, emit, TokenSequence.add, text]
  · simp [take, kind, emit, TokenSequence.add, text]

/-- Tokens that pass a test are released up to one that fails it. -/
theorem release_append {pending : List Token} (test : Token → Bool)
    (pass : ∀ token ∈ pending, test token = true)
    (fail : ∀ token ∈ waiting.head?, test token = false) :
    release ⟨output, pending ++ waiting⟩ test = ⟨output ++ pending, waiting⟩ := by
  have all := @List.takeWhile_append_of_pos _ _ _ waiting pass
  have none := @List.dropWhile_append_of_pos _ _ _ waiting pass
  cases waiting with
  | nil => simp_all [release]
  | cons token waiting => simp_all [release]

theorem take_operator {token : Token} {pending : List Token} (isOperator : token.kind = .operator)
    (text : token.text.isEmpty = false)
    (tighter : ∀ other ∈ pending, token.precedence ≤ other.precedence)
    (looser : ∀ other ∈ waiting.head?, other.precedence < token.precedence) :
    take ⟨output, pending ++ waiting⟩ token = ⟨output ++ pending, token :: waiting⟩ := by
  have released := @release_append output waiting pending
    (fun other => token.precedence ≤ other.precedence)
    (fun other member => decide_eq_true (tighter other member))
    (fun other isHead => decide_eq_false (Nat.not_le.2 (looser other isHead)))
  simp only [take, isOperator, released]
  simp [wait, text]

theorem take_rightParen {opening closing : Token} {pending : List Token}
    (isOpening : opening.kind = .leftParen) (isClosing : closing.kind = .rightParen)
    (inside : ∀ other ∈ pending, other.kind ≠ .leftParen) :
    take ⟨output, pending ++ opening :: waiting⟩ closing = ⟨output ++ pending, waiting⟩ := by
  have released := @release_append output (opening :: waiting) pending
    (fun other => other.kind ≠ .leftParen)
    (fun other member => decide_eq_true (inside other member)) (by simp [isOpening])
  simp only [take, isClosing, close, released]
  rfl

end Conversion

namespace Derives

/-- What a derivation adds to a conversion on its way: the tree's tokens in postfix order, of which
the last may still wait, none of them looser than the level. -/
theorem convert {level : Nat} {tokens : List Token} {tree : Tree}
    (derived : Derives level tokens tree) (output waiting : List Token)
    (looser : level ≤ 5 → ∀ other ∈ waiting.head?, other.precedence < level) :
    ∃ emitted pending,
      tokens.foldl Conversion.take ⟨output, waiting⟩ = ⟨output ++ emitted, pending ++ waiting⟩ ∧
        emitted ++ pending = tree.postorder ∧
        ∀ token ∈ pending, level ≤ token.precedence ∧ token.kind ≠ .leftParen := by
  induction derived generalizing output waiting with
  | @operand token isOperand text =>
    refine ⟨[token], [], ?_, rfl, by simp⟩
    simp [Conversion.take_operand isOperand text]
  | @group opening closing tokens tree isOpening text isClosing _ inner =>
    have below := Token.precedence_of_leftParen isOpening text
    obtain ⟨emitted, pending, converted, order, tight⟩ :=
      inner output (opening :: waiting) (by simp [below])
    refine ⟨emitted ++ pending, [], ?_, by simpa using order, by simp⟩
    rw [List.cons_append, List.foldl_cons, Conversion.take_leftParen isOpening text,
      List.foldl_append, converted, List.foldl_cons,
      Conversion.take_rightParen isOpening isClosing fun other member => (tight other member).2]
    simp
  | @measured unit tokens tree isUnit text _ inner =>
    obtain ⟨emitted, pending, converted, order, tight⟩ := inner output waiting (by simp)
    -- nothing binds as tightly as an operand, so nothing of it waits
    have settled : pending = [] := by
      apply List.eq_nil_iff_forall_not_mem.2
      intro token member
      have high := (tight token member).1
      have most := token.precedence_le
      omega
    subst settled
    refine ⟨emitted ++ [unit], [], ?_, by simpa [Tree.postorder] using order, by simp⟩
    rw [List.foldl_append, converted]
    simp [Conversion.take_unit isUnit text]
  | @call function tokens tree isFunction text _ inner =>
    obtain ⟨emitted, pending, converted, order, tight⟩ :=
      inner output (function :: waiting) (by simp)
    refine ⟨emitted, pending ++ [function], ?_, ?_, ?_⟩
    · rw [List.foldl_cons, Conversion.take_function isFunction text, converted]
      simp
    · rw [← List.append_assoc, order]
      rfl
    · intro token member
      rcases List.mem_append.1 member with earlier | last
      · exact tight token earlier
      · obtain rfl := List.mem_singleton.1 last
        simp [Token.precedence_of_function isFunction, isFunction]
  | @factorial mark tokens tree isOperator text _ inner =>
    have five := Token.precedence_of_mark isOperator text
    obtain ⟨emitted, pending, converted, order, tight⟩ := inner output waiting looser
    refine ⟨emitted ++ pending, [mark], ?_, by rw [order]; rfl, by simp [five, isOperator]⟩
    rw [List.foldl_append, converted, List.foldl_cons, Conversion.take_operator isOperator
      (by simp [text]) (fun other member => five ▸ (tight other member).1)
      (fun other isHead => five ▸ looser (Nat.le_refl _) other isHead)]
    simp
  | @binary level operator leftTokens rightTokens left right isOperator atLevel least most _ _
      leftInner rightInner =>
    subst atLevel
    have text := Token.text_ne_of_precedence isOperator least
    obtain ⟨emitted, pending, converted, order, tight⟩ := leftInner output waiting looser
    obtain ⟨later, kept, rightConverted, rightOrder, rightTight⟩ :=
      rightInner (output ++ emitted ++ pending) (operator :: waiting) (by simp)
    refine ⟨emitted ++ pending ++ later, kept ++ [operator], ?_, ?_, ?_⟩
    · rw [List.foldl_append, converted, List.foldl_cons, Conversion.take_operator isOperator text
        (fun other member => (tight other member).1)
        (fun other isHead => looser (by omega) other isHead), rightConverted]
      simp
    · simp only [Tree.postorder, ← order, ← rightOrder, List.append_assoc]
    · intro token member
      rcases List.mem_append.1 member with earlier | last
      · have tighter := rightTight token earlier
        exact ⟨by omega, tighter.2⟩
      · obtain rfl := List.mem_singleton.1 last
        simp [isOperator]
  | @loosen level tokens tree _ inner =>
    obtain ⟨emitted, pending, converted, order, tight⟩ := inner output waiting (by
      intro low other isHead
      have lower := looser (by omega) other isHead
      omega)
    refine ⟨emitted, pending, converted, order, fun token member => ?_⟩
    have tighter := tight token member
    exact ⟨by omega, tighter.2⟩

/-- An operand or a group is emitted as a whole, whatever waits. -/
theorem convert_closed {tokens : List Token} {tree : Tree} (derived : Derives 7 tokens tree)
    (output waiting : List Token) :
    tokens.foldl Conversion.take ⟨output, waiting⟩ = ⟨output ++ tree.postorder, waiting⟩ := by
  obtain ⟨emitted, pending, converted, order, tight⟩ := derived.convert output waiting (by simp)
  cases pending with
  | nil => simpa [← order] using converted
  | cons token pending =>
    have high := (tight token List.mem_cons_self).1
    have most := token.precedence_le
    omega

/-- Between any other tokens an operand or a group is converted at its place, as a whole. -/
theorem toPostfix_between (before after : List Token) :
    ∃ first last : List Token, (∀ token ∈ first ++ last, token ∈ before ++ after) ∧
      ∀ (tokens : List Token) (tree : Tree), Derives 7 tokens tree →
        toPostfix (before ++ tokens ++ after) = first ++ tree.postorder ++ last := by
  generalize started : before.foldl Conversion.take ⟨[], []⟩ = start
  generalize ended : after.foldl Conversion.take ⟨[], start.waiting⟩ = finish
  have held : ∀ token ∈ start.held, token ∈ before := by
    intro token member
    rw [← started] at member
    rcases Conversion.mem_held_foldl member with there | nowhere
    · exact there
    · cases nowhere
  refine ⟨start.output, finish.output ++ finish.waiting.filter (·.kind ≠ .leftParen), ?_, ?_⟩
  · intro token member
    rcases List.mem_append.1 member with early | late
    · exact List.mem_append_left _ (held token (List.mem_append_left _ early))
    · have inside : token ∈ finish.held := by
        rcases List.mem_append.1 late with output | waiting
        · exact List.mem_append_left _ output
        · exact List.mem_append_right _ (List.mem_filter.1 waiting).1
      rw [← ended] at inside
      rcases Conversion.mem_held_foldl inside with there | waiting
      · exact List.mem_append_right _ there
      · exact List.mem_append_left _ (held token (List.mem_append_right _ waiting))
  · intro tokens tree derived
    have emitted := derived.convert_closed start.output start.waiting
    have rest := Conversion.foldl_take_after (start.output ++ tree.postorder) ⟨[], start.waiting⟩
      after
    simp only [Conversion.after, List.append_nil, ended] at rest
    simp only [toPostfix, Conversion.run, List.foldl_append, started, emitted, rest,
      Conversion.finish, List.append_assoc]

theorem toPostfix_eq {tokens : List Token} {tree : Tree} (derived : Derives 1 tokens tree) :
    toPostfix tokens = tree.postorder := by
  obtain ⟨emitted, pending, converted, order, tight⟩ := derived.convert [] [] (by simp)
  have kept : pending.filter (·.kind ≠ .leftParen) = pending :=
    List.filter_eq_self.2 fun token member => decide_eq_true (tight token member).2
  simp only [toPostfix, Conversion.run, converted, Conversion.finish, List.append_nil, kept,
    List.nil_append, order]

end Derives

end Reckoner
