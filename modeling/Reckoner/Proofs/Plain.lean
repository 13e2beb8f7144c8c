import Reckoner.Proofs.Outcome
import Reckoner.Proofs.TreeValue

/-!
# Plain expressions

A plain expression is a text whose tokens the grammar derives and that holds neither an assignment
nor a random number. Inside parentheses it is read as it is read alone, and evaluating it gives the
value of its tree and changes nothing.
-/

set_option autoImplicit false

namespace Reckoner

open Text

namespace Derives

variable {level : Nat} {tokens : List Token} {tree : Tree}

theorem isPlain (derived : Derives level tokens tree)
    (plain : ∀ token ∈ tokens, token.text ≠ assignmentText ∧ token.text ≠ randomText)
    (resolve : ∀ token ∈ tokens, token.Resolves) : tree.IsPlain := by
  induction derived with
  | @operand token isOperand text =>
    refine .leaf ?_ text (resolve token List.mem_cons_self)
    simp only [Token.isOperand, Bool.or_eq_true, decide_eq_true_eq] at isOperand
    rcases isOperand with (kind | kind) | kind
    · simp [Token.isCallable, kind]
    · simp [Token.isCallable, kind]
    · simp [Token.isCallable, kind]
  | @group opening closing tokens tree _ _ _ _ inner =>
    have inside (token : Token) (member : token ∈ tokens) : token ∈ opening :: tokens ++ [closing] :=
      List.mem_append_left _ (List.mem_cons_of_mem _ member)
    exact inner (fun token member => plain token (inside token member))
      fun token member => resolve token (inside token member)
  | @measured unit tokens tree isUnit _ _ inner =>
    have pure := plain unit (List.mem_append_right _ List.mem_cons_self)
    refine .unary (by simp [Token.isCallable, isUnit]) (by simp [Token.operandCount, isUnit])
      pure.1 pure.2 (inner ?_ ?_)
    · exact fun token member => plain token (List.mem_append_left _ member)
    · exact fun token member => resolve token (List.mem_append_left _ member)
  | @call function tokens tree isFunction _ _ inner =>
    have pure := plain function List.mem_cons_self
    refine .unary (by simp [Token.isCallable, isFunction])
      (by simp [Token.operandCount, isFunction]) pure.1 pure.2 (inner ?_ ?_)
    · exact fun token member => plain token (List.mem_cons_of_mem _ member)
    · exact fun token member => resolve token (List.mem_cons_of_mem _ member)
  | @factorial mark tokens tree isOperator text _ inner =>
    have pure := plain mark (List.mem_append_right _ List.mem_cons_self)
    refine .unary (by simp [Token.isCallable, isOperator]) (by simp [Token.operandCount, text])
      pure.1 pure.2 (inner ?_ ?_)
    · exact fun token member => plain token (List.mem_append_left _ member)
    · exact fun token member => resolve token (List.mem_append_left _ member)
  | @binary level operator leftTokens rightTokens left right isOperator atLevel _ most _ _ leftInner
      rightInner =>
    have pure := plain operator (List.mem_append_right _ List.mem_cons_self)
    have noMark : operator.text ≠ "!" := by
      intro mark
      have five := Token.precedence_of_mark isOperator mark
      omega
    have isLeft (token : Token) (member : token ∈ leftTokens) :
        token ∈ leftTokens ++ operator :: rightTokens :=
      List.mem_append_left _ member
    have isRight (token : Token) (member : token ∈ rightTokens) :
        token ∈ leftTokens ++ operator :: rightTokens :=
      List.mem_append_right _ (List.mem_cons_of_mem _ member)
    refine .binary (by simp [Token.isCallable, isOperator])
      (by simp [Token.operandCount, isOperator, noMark]) pure.1 pure.2 (leftInner ?_ ?_)
      (rightInner ?_ ?_)
    · exact fun token member => plain token (isLeft token member)
    · exact fun token member => resolve token (isLeft token member)
    · exact fun token member => plain token (isRight token member)
    · exact fun token member => resolve token (isRight token member)
  | loosen _ inner => exact inner plain resolve

end Derives

/-! ## Reading inside parentheses -/

namespace Piece

/-- After an opening parenthesis a text is read as at the start, unless it begins with a closing
one. -/
theorem read_after_leftParen {characters : List Char}
    (head : ∀ token ∈ (read none characters).head?, token.kind ≠ .rightParen) :
    read (some .leftParen) characters = read none characters := by
  -- blanks and dropped signs leave the last token as it was, so the length is what decreases
  induction bound : characters.length using Nat.strongRecOn generalizing characters with
  | ind length inner =>
    cases characters with
    | nil => simp
    | cons c rest =>
      subst bound
      have same : next (some .leftParen) c rest = next none c rest := rfl
      have shorter := Nat.lt_succ_of_le (next_length_le none c rest)
      rw [read_cons, read_cons, same] at *
      generalize (next none c rest).1 = piece at *
      generalize (next none c rest).2 = after at *
      have sameTokens : piece.tokens (some .leftParen) = piece.tokens none := by
        cases piece with
        | symbol c =>
          by_cases closing : c = ')'
          · subst closing
            exact absurd rfl (head _ rfl)
          · simp [tokens, closing]
        | blank c => rfl
        | sign sign => cases sign <;> rfl
        | numeral signed => rfl
        | word first rest => rfl
      rw [sameTokens]
      cases found : piece.tokens none with
      | nil =>
        rw [found] at head
        exact inner _ shorter head rfl
      | cons token others => simp [List.getLast?_cons]

/-- Derived tokens are read inside parentheses as they are read alone. -/
theorem read_group {characters : List Char} {tokens : List Token} {tree : Tree}
    (isRead : read none characters = tokens) (derived : Derives 1 tokens tree)
    (previous : Option Token) (rest : List Char) :
    read previous ('(' :: characters ++ ')' :: rest) =
      .leftParen :: tokens ++ .rightParen :: read (some .rightParen) rest := by
  obtain ⟨first, others, shape, noClosing⟩ := derived.head
  obtain ⟨last, isLast, noOpening⟩ := derived.getLast
  have inside : read (some .leftParen) characters = tokens := by
    rw [← isRead]
    apply read_after_leftParen
    rw [isRead, shape]
    rintro token isHead
    rw [← Option.some.inj isHead]
    exact noClosing
  have stops : Stops (')' :: rest) := stops_cons (by decide) rest
  rw [List.cons_append, read_leftParen, read_append stops, inside, isLast, Option.some_or,
    read_rightParen (by simpa using noOpening)]
  rfl

end Piece

/-- A derived text in parentheses, inside any other text. -/
theorem Derives.tokenize_between {text : String} {tree : Tree}
    (derived : Derives 1 (tokenize text) tree) (before after : String) :
    tokenize (before ++ "(" ++ text ++ ")" ++ after) =
      tokenize before ++ (.leftParen :: tokenize text ++ [.rightParen]) ++
        Piece.read (some .rightParen) after.toList := by
  have whole : (before ++ "(" ++ text ++ ")" ++ after).toList =
      before.toList ++ ('(' :: text.toList ++ ')' :: after.toList) := by
    simp
  have stops : Stops ('(' :: text.toList ++ ')' :: after.toList) := stops_cons (by decide) _
  rw [Piece.tokenize_eq_read, whole, Piece.read_append stops, Piece.read_group rfl derived]
  simp [Piece.tokenize_eq_read]

theorem Derives.grouped {tokens : List Token} {tree : Tree} (derived : Derives 1 tokens tree) :
    Derives 7 (.leftParen :: tokens ++ [.rightParen]) tree :=
  .group rfl rfl rfl derived

theorem Derives.tokenize_group {text : String} {tree : Tree}
    (derived : Derives 1 (tokenize text) tree) :
    tokenize ("(" ++ text ++ ")") = .leftParen :: tokenize text ++ [.rightParen] := by
  have whole : ("(" ++ text ++ ")").toList = '(' :: text.toList ++ ')' :: [] := by
    simp
  rw [Piece.tokenize_eq_read, whole, Piece.read_group rfl derived, Piece.read_nil]
  rfl

/-! ## Plain expressions -/

/-- A text that the grammar derives, without assignments and random numbers. -/
structure PlainExpression where
  text : String
  tree : Tree
  derived : Derives 1 (tokenize text) tree
  plain : ∀ token ∈ tokenize text, token.text ≠ assignmentText ∧ token.text ≠ randomText

namespace PlainExpression

theorem isPlain (expression : PlainExpression) : expression.tree.IsPlain :=
  expression.derived.isPlain expression.plain resolves_of_mem_read

end PlainExpression

namespace Tree

def result (settings : Settings) (table : Variables) (tree : Tree) :
    Except Decimal.PlacesError Float := do
  settings.resultPrecision.round (← tree.value settings table)

end Tree

namespace Calculator

variable (calculator : Calculator) (random : RandomSource) {text : String} {tree : Tree}

/-- Evaluating a text whose tokens are converted to those of a plain tree gives the tree's value and
changes nothing. -/
theorem outcome_of_postorder (converted : toPostfix (tokenize text) = tree.postorder)
    (plain : tree.IsPlain) :
    calculator.outcome random text =
      ((tree.result calculator.settings calculator.table).mapError EvaluationFailure.places,
        calculator, random) := by
  have pushed := @Machine.pushes_postorder calculator.settings
    (Machine.start calculator.table random) _ plain
  have started : { Machine.start calculator.table random with definesVariable := false } =
      Machine.start calculator.table random := rfl
  have table : (Machine.start calculator.table random).table = calculator.table := rfl
  rw [outcome_eq, converted, Machine.evaluate_eq, started]
  rw [table] at pushed
  unfold Tree.result
  cases valued : tree.value calculator.settings calculator.table with
  | error error =>
    rw [valued] at pushed
    obtain ⟨stopped, failed, cause, sameTable, sameRandom⟩ := pushed
    simp only [failed, Except.bind, Machine.outcome, cause, sameTable, sameRandom]
    rfl
  | ok number =>
    rw [valued] at pushed
    obtain ⟨token, flags, defines, ran, resolved⟩ := pushed
    rw [table] at resolved
    simp only [ran, Except.bind, Machine.finish, List.head?_cons, table, resolved, bind]
    cases calculator.settings.resultPrecision.round number with
    | error error => rfl
    | ok rounded => rfl

theorem outcome_of_derives (derived : Derives 1 (tokenize text) tree) (plain : tree.IsPlain) :
    calculator.outcome random text =
      ((tree.result calculator.settings calculator.table).mapError EvaluationFailure.places,
        calculator, random) :=
  calculator.outcome_of_postorder random derived.toPostfix_eq plain

end Calculator

end Reckoner
