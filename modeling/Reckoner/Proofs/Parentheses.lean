import Reckoner.Proofs.Conversion
import Reckoner.Proofs.Lexed

/-!
# Parentheses in a conversion

No parenthesis comes out of the conversion of a text, balanced or not. A closing one is never put
anywhere, and an opening one waits until it is dropped: its precedence is below that of every
operator that is read from a text, so no operator releases it.
-/

set_option autoImplicit false

namespace Reckoner

namespace Token

def isParenthesis (token : Token) : Bool :=
  token.kind = .leftParen || token.kind = .rightParen

/-- A token that takes part in a conversion as a token from a text does: an operator moves other
tokens by its precedence, and an opening parenthesis is below every operator. -/
structure Binds (token : Token) : Prop where
  operator : token.kind = .operator → 0 < token.precedence
  opening : token.kind = .leftParen → token.precedence = 0

end Token

namespace Conversion

/-- No parenthesis is in the output; those that wait are opening ones below every operator. -/
structure IsClear (conversion : Conversion) : Prop where
  output : ∀ token ∈ conversion.output, token.isParenthesis = false
  waiting : ∀ token ∈ conversion.waiting,
    token.isParenthesis = false ∨ token.kind = .leftParen ∧ token.precedence = 0

variable {conversion : Conversion}

theorem IsClear.release (isClear : conversion.IsClear) {test : Token → Bool}
    (keeps : ∀ token, token.kind = .leftParen → token.precedence = 0 → test token = false) :
    (conversion.release test).IsClear where
  output := by
    intro token member
    rcases List.mem_append.1 member with before | released
    · exact isClear.output token before
    · have passed := List.all_eq_true.1 List.all_takeWhile token released
      have waited := isClear.waiting token ((List.takeWhile_sublist _).mem released)
      rcases waited with other | ⟨opening, low⟩
      · exact other
      · rw [keeps token opening low] at passed
        cases passed
  waiting := fun token member => isClear.waiting token ((List.dropWhile_sublist _).mem member)

theorem IsClear.emit (isClear : conversion.IsClear) {token : Token}
    (other : token.isParenthesis = false) : (conversion.emit token).IsClear := by
  unfold Conversion.emit TokenSequence.add
  split
  · exact isClear
  · refine ⟨?_, isClear.waiting⟩
    intro found member
    rcases List.mem_append.1 member with before | same
    · exact isClear.output found before
    · rw [List.mem_singleton.1 same]
      exact other

theorem IsClear.wait (isClear : conversion.IsClear) {token : Token}
    (waits : token.isParenthesis = false ∨ token.kind = .leftParen ∧ token.precedence = 0) :
    (conversion.wait token).IsClear := by
  unfold Conversion.wait
  split
  · exact isClear
  · refine ⟨isClear.output, ?_⟩
    intro found member
    rcases List.mem_cons.1 member with rfl | before
    · exact waits
    · exact isClear.waiting found before

theorem IsClear.take (isClear : conversion.IsClear) {token : Token} (binds : token.Binds) :
    (conversion.take token).IsClear := by
  unfold Conversion.take
  cases kind : token.kind with
  | leftParen => exact isClear.wait (.inr ⟨kind, binds.opening kind⟩)
  | rightParen =>
    have released := @IsClear.release _ isClear (·.kind ≠ .leftParen)
      (fun other opening _ => by simp [opening])
    exact ⟨released.output,
      fun other member => released.waiting other (List.mem_of_mem_drop member)⟩
  | function => exact isClear.wait (.inl (by simp [Token.isParenthesis, kind]))
  | operator =>
    refine (isClear.release ?_).wait (.inl (by simp [Token.isParenthesis, kind]))
    -- an opening parenthesis is below every operator, so what is released ends before it
    intro other _ low
    have high := binds.operator kind
    simp only [low, decide_eq_false_iff_not]
    omega
  | number => exact isClear.emit (by simp [Token.isParenthesis, kind])
  | name => exact isClear.emit (by simp [Token.isParenthesis, kind])
  | unit => exact isClear.emit (by simp [Token.isParenthesis, kind])
  | unknown => exact isClear.emit (by simp [Token.isParenthesis, kind])

theorem IsClear.foldl (isClear : conversion.IsClear) {tokens : List Token}
    (bind : ∀ token ∈ tokens, token.Binds) :
    (tokens.foldl Conversion.take conversion).IsClear := by
  induction tokens generalizing conversion with
  | nil => exact isClear
  | cons token tokens inner =>
    exact inner (isClear.take (bind token List.mem_cons_self))
      fun other later => bind other (List.mem_cons_of_mem token later)

theorem isParenthesis_of_mem_run {waiting tokens : List Token} (started : IsClear ⟨[], waiting⟩)
    (bind : ∀ token ∈ tokens, token.Binds) :
    ∀ token ∈ (run waiting tokens).output, token.isParenthesis = false := by
  have isClear := started.foldl bind
  intro token member
  simp only [run, finish, List.mem_append, List.mem_filter] at member
  rcases member with output | ⟨waiting, other⟩
  · exact isClear.output token output
  · rcases isClear.waiting token waiting with clear | ⟨opening, -⟩
    · exact clear
    · simp [opening] at other

theorem isParenthesis_of_mem_toPostfix {tokens : List Token}
    (bind : ∀ token ∈ tokens, token.Binds) :
    ∀ token ∈ toPostfix tokens, token.isParenthesis = false :=
  isParenthesis_of_mem_run ⟨fun _ => nofun, fun _ => nofun⟩ bind

/-- The token that is dropped when a parenthesis is closed is an opening one. -/
theorem filter_closed {keep : Token → Bool}
    (noOpening : ∀ token, token.kind = .leftParen → keep token = false) (waiting : List Token) :
    ((waiting.dropWhile (·.kind ≠ .leftParen)).drop 1).filter keep =
      (waiting.dropWhile (·.kind ≠ .leftParen)).filter keep := by
  have head := List.head?_dropWhile_not (fun token : Token => token.kind ≠ .leftParen) waiting
  cases left : waiting.dropWhile (·.kind ≠ .leftParen) with
  | nil => rfl
  | cons opening others =>
    simp only [left, List.head?_cons, decide_eq_false_iff_not, ne_eq, Decidable.not_not] at head
    simp [noOpening opening head]

end Conversion

theorem Token.binds_symbolToken (c : Char) : (Piece.symbolToken c).Binds := by
  have above : ∀ text ∈ operatorTexts, 0 < textPrecedence text := by decide
  unfold Piece.symbolToken
  simp only
  split
  · rename_i isOperator
    exact ⟨fun _ => above _ (List.contains_iff_mem.1 isOperator), nofun⟩
  · split
    · rename_i opening
      subst opening
      exact ⟨nofun, fun _ => by decide⟩
    · split
      · exact ⟨nofun, nofun⟩
      · exact ⟨nofun, nofun⟩

theorem Token.binds_of_mem_read {previous : Option Token} {characters : List Char} :
    ∀ token ∈ Piece.read previous characters, token.Binds := by
  refine Piece.forall_mem_read Token.Binds ⟨?_, ?_⟩ ?_ ?_ ?_ ?_
  · exact ⟨nofun, nofun⟩
  · exact ⟨fun _ => by decide, nofun⟩
  · exact ⟨nofun, nofun⟩
  · exact fun signed _ => ⟨nofun, nofun⟩
  · intro word _
    rcases Token.ofWord_cases word with ⟨isFunction, -⟩ | ⟨unit, isUnit⟩ | isName
    · exact ⟨by simp [isFunction], by simp [isFunction]⟩
    · exact ⟨by simp [isUnit], by simp [isUnit]⟩
    · exact ⟨by simp [isName], by simp [isName]⟩
  · exact fun c _ _ _ _ => Token.binds_symbolToken c

/-- No parenthesis comes out of the conversion of a text. -/
theorem isParenthesis_of_mem_postfix {text : String} :
    ∀ token ∈ toPostfix (tokenize text), token.isParenthesis = false :=
  Conversion.isParenthesis_of_mem_toPostfix Token.binds_of_mem_read

end Reckoner
