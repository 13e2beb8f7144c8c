import Reckoner.Proofs.Parentheses

/-!
# What a conversion conserves

A conversion moves tokens to the output, some of them by way of the waiting ones, and drops
parentheses. It loses no other token and makes none, and the operands and units, which never wait,
come out in the order in which they went in. The tokens to be converted are a value that is only
read. Nothing here asks that parentheses balance or that operators have operands, and the conversion
may start from any operators that wait already.
-/

set_option autoImplicit false

namespace Reckoner

namespace Token

/-- A token whose text fits its kind, as far as a conversion looks at it. -/
structure IsProper (token : Token) : Prop where
  text : token.text ≠ ""
  operator : token.kind = .operator → token.text ∈ operatorTexts
  opening : token.kind = .leftParen → token.text = "("

instance (token : Token) : Decidable token.IsProper :=
  decidable_of_iff
    (token.text ≠ "" ∧ (token.kind = .operator → token.text ∈ operatorTexts) ∧
      (token.kind = .leftParen → token.text = "("))
    ⟨fun ⟨text, operator, opening⟩ => ⟨text, operator, opening⟩,
      fun ⟨text, operator, opening⟩ => ⟨text, operator, opening⟩⟩

theorem IsProper.binds {token : Token} (proper : token.IsProper) : token.Binds where
  operator := by
    intro isOperator
    have above : ∀ text ∈ operatorTexts, 0 < textPrecedence text := by decide
    simpa [precedence, isOperator] using above _ (proper.operator isOperator)
  opening := by
    intro isOpening
    simp [precedence, isOpening, proper.opening isOpening, textPrecedence]

/-- Operands and units go to the output at once. -/
def isPassed (token : Token) : Bool :=
  token.isOperand || token.kind = .unit

end Token

namespace Conversion

open scoped List

variable {conversion : Conversion} {token : Token}

/-! ## Every token is somewhere -/

theorem perm_held_wait (text : token.text ≠ "") :
    (conversion.wait token).held.Perm (token :: conversion.held) := by
  simp [wait, held, text, List.perm_middle]

theorem perm_held_emit (text : token.text ≠ "") :
    (conversion.emit token).held.Perm (token :: conversion.held) := by
  simp [emit, TokenSequence.add, held, text, List.perm_middle]

theorem held_release (test : Token → Bool) :
    (conversion.release test).held = conversion.held := by
  simp [release, held]

section

variable {keep : Token → Bool} (noParenthesis : ∀ token, token.isParenthesis = true →
  keep token = false)

include noParenthesis

theorem filter_held_close :
    conversion.close.held.filter keep = conversion.held.filter keep := by
  have dropped := filter_closed (fun token opening => noParenthesis token (by
    simp [Token.isParenthesis, opening])) conversion.waiting
  have whole := @List.takeWhile_append_dropWhile _ (·.kind ≠ .leftParen) conversion.waiting
  simp only [close, release, held, List.filter_append, List.append_assoc, dropped]
  rw [← List.filter_append, whole]

theorem perm_take (text : token.text ≠ "") :
    ((conversion.take token).held.filter keep).Perm ((token :: conversion.held).filter keep) := by
  unfold take
  cases kind : token.kind with
  | leftParen => exact (perm_held_wait text).filter keep
  | rightParen =>
    have isDropped := noParenthesis token (by simp [Token.isParenthesis, kind])
    simp [filter_held_close noParenthesis, isDropped]
  | function => exact (perm_held_wait text).filter keep
  | operator =>
    have waited := @perm_held_wait
      (conversion.release fun other => token.precedence ≤ other.precedence) token text
    rw [held_release] at waited
    exact waited.filter keep
  | _ => exact (perm_held_emit text).filter keep

theorem perm_foldl {tokens : List Token} (texts : ∀ token ∈ tokens, token.text ≠ "") :
    ((tokens.foldl take conversion).held.filter keep).Perm
      ((tokens ++ conversion.held).filter keep) := by
  induction tokens generalizing conversion with
  | nil => exact .refl _
  | cons token tokens inner =>
    have first := @perm_take conversion token keep noParenthesis (texts token List.mem_cons_self)
    have others := @inner (conversion.take token) fun other later =>
      texts other (List.mem_cons_of_mem token later)
    calc (tokens.foldl take (conversion.take token)).held.filter keep
        ~ tokens.filter keep ++ (conversion.take token).held.filter keep := by
          simpa using others
      _ ~ tokens.filter keep ++ (token :: conversion.held).filter keep := first.append_left _
      _ = (tokens ++ token :: conversion.held).filter keep := by
          rw [List.filter_append]
      _ ~ (token :: tokens ++ conversion.held).filter keep := List.perm_middle.filter keep

/-- At the end the output holds all that was held, but for parentheses. -/
theorem filter_output_finish :
    conversion.finish.output.filter keep = conversion.held.filter keep := by
  have kept : (conversion.waiting.filter (·.kind ≠ .leftParen)).filter keep =
      conversion.waiting.filter keep := by
    rw [List.filter_filter]
    apply List.filter_congr
    intro token _
    by_cases opening : token.kind = .leftParen
    · simp [noParenthesis token (by simp [Token.isParenthesis, opening])]
    · simp [opening]
  simp only [finish, held, List.filter_append, kept]

end

/-! ## What never waits keeps its order -/

/-- The operands and units among the tokens taken so far are in the output, and none of them
waits. -/
structure InOrder (taken : List Token) (conversion : Conversion) : Prop where
  output : conversion.output.filter Token.isPassed = taken.filter Token.isPassed
  waiting : ∀ token ∈ conversion.waiting, token.isPassed = false

namespace InOrder

variable {taken : List Token}

theorem release (inOrder : InOrder taken conversion) (test : Token → Bool) :
    InOrder taken (conversion.release test) where
  output := by
    have none : (conversion.waiting.takeWhile test).filter Token.isPassed = [] := by
      apply List.filter_eq_nil_iff.2
      intro token member
      simp [inOrder.waiting token ((List.takeWhile_sublist _).mem member)]
    simp only [Conversion.release, List.filter_append, none, List.append_nil, inOrder.output]
  waiting := fun token member => inOrder.waiting token ((List.dropWhile_sublist _).mem member)

theorem wait (inOrder : InOrder taken conversion) (waits : token.isPassed = false) :
    InOrder (taken ++ [token]) (conversion.wait token) := by
  unfold Conversion.wait
  split
  · exact ⟨by simp [inOrder.output, waits], inOrder.waiting⟩
  · refine ⟨by simp [inOrder.output, waits], ?_⟩
    intro other member
    rcases List.mem_cons.1 member with rfl | before
    · exact waits
    · exact inOrder.waiting other before

theorem close (inOrder : InOrder taken conversion) (noOperand : token.isPassed = false) :
    InOrder (taken ++ [token]) conversion.close := by
  have released := inOrder.release (·.kind ≠ .leftParen)
  constructor
  · rw [List.filter_append, ← released.output]
    simp [Conversion.close, noOperand]
  · intro other member
    exact released.waiting other (List.mem_of_mem_drop member)

theorem emit (inOrder : InOrder taken conversion) (text : token.text ≠ "") :
    InOrder (taken ++ [token]) (conversion.emit token) := by
  constructor
  · simp [Conversion.emit, TokenSequence.add, text, inOrder.output]
  · exact inOrder.waiting

theorem take (inOrder : InOrder taken conversion) (text : token.text ≠ "") :
    InOrder (taken ++ [token]) (conversion.take token) := by
  unfold Conversion.take
  cases kind : token.kind with
  | leftParen => exact inOrder.wait (by simp [Token.isPassed, Token.isOperand, kind])
  | rightParen => exact inOrder.close (by simp [Token.isPassed, Token.isOperand, kind])
  | function => exact inOrder.wait (by simp [Token.isPassed, Token.isOperand, kind])
  | operator =>
    exact (inOrder.release _).wait (by simp [Token.isPassed, Token.isOperand, kind])
  | _ => exact inOrder.emit text

theorem foldl (inOrder : InOrder taken conversion) {tokens : List Token}
    (texts : ∀ token ∈ tokens, token.text ≠ "") :
    InOrder (taken ++ tokens) (tokens.foldl Conversion.take conversion) := by
  induction tokens generalizing taken conversion with
  | nil => simpa using inOrder
  | cons token tokens inner =>
    have first := inOrder.take (texts token List.mem_cons_self)
    have others := inner first fun other later => texts other (List.mem_cons_of_mem token later)
    simpa using others

end InOrder

/-! ## The whole conversion -/

/-- The kinds of the tokens that wait for what follows them. -/
def waitingKinds : List TokenKind := [.operator, .function, .leftParen]

section

variable {waiting tokens : List Token} (wait : ∀ token ∈ waiting, token.kind ∈ waitingKinds)

include wait

theorem isClear_start (proper : ∀ token ∈ waiting, token.IsProper) : IsClear ⟨[], waiting⟩ := by
  refine ⟨nofun, ?_⟩
  intro token member
  have waits := wait token member
  simp only [waitingKinds, List.mem_cons, List.not_mem_nil, or_false] at waits
  rcases waits with kind | kind | kind
  · exact .inl (by simp [Token.isParenthesis, kind])
  · exact .inl (by simp [Token.isParenthesis, kind])
  · exact .inr ⟨kind, (proper token member).binds.opening kind⟩

theorem inOrder_start : InOrder [] ⟨[], waiting⟩ := by
  refine ⟨rfl, ?_⟩
  intro token member
  have waits := wait token member
  simp only [waitingKinds, List.mem_cons, List.not_mem_nil, or_false] at waits
  rcases waits with kind | kind | kind
  · simp [Token.isPassed, Token.isOperand, kind]
  · simp [Token.isPassed, Token.isOperand, kind]
  · simp [Token.isPassed, Token.isOperand, kind]

theorem filter_isPassed_run (texts : ∀ token ∈ tokens, token.text ≠ "") :
    (run waiting tokens).output.filter Token.isPassed = tokens.filter Token.isPassed := by
  have inOrder := (inOrder_start wait).foldl texts
  have none : ((tokens.foldl take ⟨[], waiting⟩).waiting.filter (·.kind ≠ .leftParen)).filter
      Token.isPassed = [] := by
    apply List.filter_eq_nil_iff.2
    intro token member
    simp [inOrder.waiting token (List.mem_filter.1 member).1]
  simp only [run, finish, List.filter_append, none, List.append_nil, inOrder.output,
    List.nil_append]

end

/-- A conversion of any tokens, from any operators that wait already, puts each token out exactly
once, parentheses apart; operands and units keep their order, and at the end nothing waits. -/
theorem run_conserves {waiting tokens : List Token}
    (proper : ∀ token ∈ waiting ++ tokens, token.IsProper)
    (wait : ∀ token ∈ waiting, token.kind ∈ waitingKinds) :
    (run waiting tokens).output.Perm ((tokens ++ waiting).filter (!·.isParenthesis)) ∧
      (run waiting tokens).output.filter Token.isPassed = tokens.filter Token.isPassed ∧
      (∀ token ∈ (run waiting tokens).output, token.isParenthesis = false) ∧
      (run waiting tokens).waiting = [] := by
  have properWaiting : ∀ token ∈ waiting, token.IsProper :=
    fun token member => proper token (List.mem_append_left _ member)
  have properTokens : ∀ token ∈ tokens, token.IsProper :=
    fun token member => proper token (List.mem_append_right _ member)
  have texts : ∀ token ∈ tokens, token.text ≠ "" :=
    fun token member => (properTokens token member).text
  have clear := isParenthesis_of_mem_run (isClear_start wait properWaiting)
    fun token member => (properTokens token member).binds
  have noParenthesis : ∀ token : Token, token.isParenthesis = true →
      (!token.isParenthesis) = false := by
    intro token isParenthesis
    simp [isParenthesis]
  refine ⟨?_, filter_isPassed_run wait texts, clear, rfl⟩
  have whole : (run waiting tokens).output.filter (!·.isParenthesis) =
      (run waiting tokens).output :=
    List.filter_eq_self.2 fun token member => by simp [clear token member]
  rw [← whole, run, filter_output_finish noParenthesis]
  exact perm_foldl noParenthesis texts

/-- A closing parenthesis too many, an opening one too many and operators without operands, with
three tokens that wait already. -/
theorem run_conserves_of_unbalanced :
    let waiting : List Token :=
      [⟨"sqrt", .function, none⟩, ⟨"(", .leftParen, none⟩, ⟨"-", .operator, none⟩]
    let tokens : List Token :=
      [⟨"x", .name, none⟩, ⟨"*", .operator, none⟩, ⟨")", .rightParen, none⟩,
        ⟨")", .rightParen, none⟩, ⟨"+", .operator, none⟩, ⟨"(", .leftParen, none⟩,
        ⟨"#", .unknown, none⟩, ⟨"mb", .unit, none⟩]
    (∀ token ∈ waiting ++ tokens, token.IsProper) ∧
      (∀ token ∈ waiting, token.kind ∈ waitingKinds) ∧
      (run waiting tokens).output.Perm ((tokens ++ waiting).filter (!·.isParenthesis)) ∧
      (run waiting tokens).output.map Token.text = ["x", "sqrt", "*", "-", "#", "mb", "+"] := by
  intro waiting tokens
  have proper : ∀ token ∈ waiting ++ tokens, token.IsProper := by decide
  have wait : ∀ token ∈ waiting, token.kind ∈ waitingKinds := by decide
  exact ⟨proper, wait, (run_conserves proper wait).1, by decide⟩

end Conversion

end Reckoner
