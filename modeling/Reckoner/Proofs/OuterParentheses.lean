import Reckoner.Proofs.Parentheses

/-!
# Outer parentheses

Parentheses around all of a text change nothing in its postfix order, also where their numbers
differ and where the text itself does not balance. Opening ones lie below everything else that
waits. No operator reaches past them, and a closing parenthesis without partner takes one of them
instead of nothing. Closing ones at the end only release what is released anyway.
-/

set_option autoImplicit false

namespace Reckoner

namespace Conversion

/-- The conversion with some opening parentheses below the tokens that wait. -/
def above (count : Nat) (conversion : Conversion) : Conversion :=
  { conversion with waiting := conversion.waiting ++ List.replicate count .leftParen }

variable {conversion : Conversion} {count : Nat}

theorem release_above {test : Token → Bool} (fails : test .leftParen = false) :
    (conversion.above count).release test = (conversion.release test).above count := by
  have outside : ∀ token ∈ (List.replicate count Token.leftParen).head?, test token = false := by
    intro token isHead
    rw [List.eq_of_mem_replicate (List.mem_of_mem_head? isHead)]
    exact fails
  have split := takeWhile_append_of_stops conversion.waiting outside
  simp only [above, release, split.1, split.2]

theorem wait_above (token : Token) :
    (conversion.above count).wait token = (conversion.wait token).above count := by
  unfold wait
  split
  · rfl
  · rfl

theorem emit_above (token : Token) :
    (conversion.above count).emit token = (conversion.emit token).above count := by
  unfold emit
  rfl

/-- A closing parenthesis takes one of the lower ones if it has no partner above them. -/
theorem exists_close_above :
    ∃ left, (conversion.above count).close = conversion.close.above left := by
  have released := @release_above conversion count (·.kind ≠ .leftParen) rfl
  simp only [close, released]
  generalize conversion.release (·.kind ≠ .leftParen) = rest
  obtain ⟨output, waiting⟩ := rest
  cases waiting with
  | nil => exact ⟨count - 1, by simp [above]⟩
  | cons opening others => exact ⟨count, by simp [above]⟩

theorem exists_take_above {token : Token} (binds : token.Binds) :
    ∃ left, (conversion.above count).take token = (conversion.take token).above left := by
  unfold take
  cases kind : token.kind with
  | leftParen => exact ⟨count, wait_above token⟩
  | rightParen => exact exists_close_above
  | function => exact ⟨count, wait_above token⟩
  | operator =>
    have high := binds.operator kind
    have released := @release_above conversion count
      (fun other => token.precedence ≤ other.precedence)
      (decide_eq_false (Nat.not_le.2 high))
    exact ⟨count, by simp only [released, wait_above]⟩
  | _ => exact ⟨count, emit_above token⟩

theorem exists_foldl_above {tokens : List Token} (bind : ∀ token ∈ tokens, token.Binds) :
    ∃ left,
      tokens.foldl take (conversion.above count) = (tokens.foldl take conversion).above left := by
  induction tokens generalizing conversion count with
  | nil => exact ⟨count, rfl⟩
  | cons token tokens inner =>
    obtain ⟨left, taken⟩ :=
      @exists_take_above conversion count token (bind token List.mem_cons_self)
    rw [List.foldl_cons, List.foldl_cons, taken]
    exact inner fun other later => bind other (List.mem_cons_of_mem token later)

theorem finish_above : (conversion.above count).finish = conversion.finish := by
  simp [above, finish, List.filter_append, Token.leftParen]

theorem finish_close : conversion.close.finish = conversion.finish := by
  have dropped := @filter_closed (·.kind ≠ .leftParen) (fun token opening => by simp [opening])
    conversion.waiting
  have released : (conversion.waiting.takeWhile (·.kind ≠ .leftParen)).filter
      (·.kind ≠ .leftParen) = conversion.waiting.takeWhile (·.kind ≠ .leftParen) :=
    List.filter_eq_self.2 (List.all_eq_true.1 List.all_takeWhile)
  have whole := congrArg (List.filter (·.kind ≠ .leftParen))
    (@List.takeWhile_append_dropWhile _ (·.kind ≠ .leftParen) conversion.waiting)
  rw [List.filter_append, released] at whole
  simp only [finish, close, release, dropped, List.append_assoc, whole]

theorem finish_foldl_closing (conversion : Conversion) (count : Nat) :
    ((List.replicate count Token.rightParen).foldl take conversion).finish = conversion.finish := by
  induction count generalizing conversion with
  | zero => rfl
  | succ count inner =>
    have closed : conversion.take .rightParen = conversion.close := rfl
    rw [List.replicate_succ, List.foldl_cons, inner, closed, finish_close]

theorem foldl_opening (count : Nat) :
    (List.replicate count Token.leftParen).foldl take ⟨[], []⟩ = above count ⟨[], []⟩ := by
  induction count with
  | zero => rfl
  | succ count inner =>
    rw [List.replicate_succ', List.foldl_append, inner]
    rfl

theorem toPostfix_between_parentheses {tokens : List Token} (bind : ∀ token ∈ tokens, token.Binds)
    (opening closing : Nat) :
    toPostfix (List.replicate opening .leftParen ++ tokens ++ List.replicate closing .rightParen) =
      toPostfix tokens := by
  obtain ⟨left, converted⟩ := @exists_foldl_above ⟨[], []⟩ opening tokens bind
  simp only [toPostfix, run, List.foldl_append, foldl_opening, converted, finish_foldl_closing,
    finish_above]

/-- Any numbers of opening parentheses in front of a text's tokens and of closing ones behind them
leave the postfix order as it is. -/
theorem toPostfix_tokenize_between_parentheses (text : String) (opening closing : Nat) :
    toPostfix (List.replicate opening .leftParen ++ tokenize text ++
      List.replicate closing .rightParen) = toPostfix (tokenize text) :=
  toPostfix_between_parentheses Token.binds_of_mem_read opening closing

end Conversion

end Reckoner
