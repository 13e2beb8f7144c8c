import Reckoner.Postfix

/-!
# Conversions on their way

A conversion only ever adds to its output, and what it adds depends on the waiting tokens alone. No
token comes out of it that did not go in.
-/

set_option autoImplicit false

namespace Reckoner

namespace Conversion

/-- The conversion with some output in front of its own. -/
def after (output : List Token) (conversion : Conversion) : Conversion :=
  ⟨output ++ conversion.output, conversion.waiting⟩

theorem release_after (output : List Token) (conversion : Conversion) (test : Token → Bool) :
    (conversion.after output).release test = (conversion.release test).after output := by
  simp [after, release]

theorem wait_after (output : List Token) (conversion : Conversion) (token : Token) :
    (conversion.after output).wait token = (conversion.wait token).after output := by
  unfold wait
  split
  · rfl
  · rfl

theorem emit_after (output : List Token) (conversion : Conversion) (token : Token) :
    (conversion.after output).emit token = (conversion.emit token).after output := by
  unfold emit TokenSequence.add
  split
  · rfl
  · simp [after]

theorem take_after (output : List Token) (conversion : Conversion) (token : Token) :
    (conversion.after output).take token = (conversion.take token).after output := by
  unfold take
  cases token.kind with
  | leftParen => exact wait_after output conversion token
  | rightParen =>
    simp only [close, release_after]
    rfl
  | function => exact wait_after output conversion token
  | operator => simp only [release_after, wait_after]
  | _ => exact emit_after output conversion token

/-- What tokens do to a conversion does not depend on its output. -/
theorem foldl_take_after (output : List Token) (conversion : Conversion) (tokens : List Token) :
    tokens.foldl take (conversion.after output) = (tokens.foldl take conversion).after output := by
  induction tokens generalizing conversion with
  | nil => rfl
  | cons token tokens inner => rw [List.foldl_cons, List.foldl_cons, take_after, inner]

def held (conversion : Conversion) : List Token :=
  conversion.output ++ conversion.waiting

theorem mem_held_release {conversion : Conversion} {test : Token → Bool} {token : Token}
    (member : token ∈ (conversion.release test).held) : token ∈ conversion.held := by
  simpa [release, held] using member

theorem mem_held_wait {conversion : Conversion} {added token : Token}
    (member : token ∈ (conversion.wait added).held) : token = added ∨ token ∈ conversion.held := by
  unfold wait at member
  split at member
  · exact .inr member
  · simp only [held, List.mem_append, List.mem_cons] at member ⊢
    rcases member with output | rfl | waiting
    · exact .inr (.inl output)
    · exact .inl rfl
    · exact .inr (.inr waiting)

theorem mem_held_emit {conversion : Conversion} {added token : Token}
    (member : token ∈ (conversion.emit added).held) : token = added ∨ token ∈ conversion.held := by
  unfold emit TokenSequence.add at member
  split at member
  · exact .inr member
  · simp only [held, List.mem_append, List.mem_singleton] at member ⊢
    rcases member with (output | same) | waiting
    · exact .inr (.inl output)
    · exact .inl same
    · exact .inr (.inr waiting)

theorem mem_held_close {conversion : Conversion} {token : Token}
    (member : token ∈ conversion.close.held) : token ∈ conversion.held := by
  apply @mem_held_release conversion (·.kind ≠ .leftParen)
  simp only [close, held, List.mem_append] at member ⊢
  rcases member with output | waiting
  · exact .inl output
  · exact .inr (List.mem_of_mem_drop waiting)

theorem mem_held_take {conversion : Conversion} {added token : Token}
    (member : token ∈ (conversion.take added).held) : token = added ∨ token ∈ conversion.held := by
  unfold take at member
  cases kind : added.kind with
  | leftParen => exact mem_held_wait (by simpa only [kind] using member)
  | rightParen => exact .inr (mem_held_close (by simpa only [kind] using member))
  | function => exact mem_held_wait (by simpa only [kind] using member)
  | operator =>
    simp only [kind] at member
    rcases mem_held_wait member with same | inside
    · exact .inl same
    · exact .inr (mem_held_release inside)
  | number => exact mem_held_emit (by simpa only [kind] using member)
  | name => exact mem_held_emit (by simpa only [kind] using member)
  | unit => exact mem_held_emit (by simpa only [kind] using member)
  | unknown => exact mem_held_emit (by simpa only [kind] using member)

theorem mem_held_foldl {conversion : Conversion} {tokens : List Token} {token : Token}
    (member : token ∈ (tokens.foldl take conversion).held) :
    token ∈ tokens ∨ token ∈ conversion.held := by
  induction tokens generalizing conversion with
  | nil => exact .inr member
  | cons added tokens inner =>
    rw [List.foldl_cons] at member
    rcases inner member with later | inside
    · exact .inl (List.mem_cons_of_mem added later)
    · rcases mem_held_take inside with rfl | before
      · exact .inl List.mem_cons_self
      · exact .inr before

end Conversion

theorem mem_of_mem_toPostfix {tokens : List Token} {token : Token}
    (member : token ∈ toPostfix tokens) : token ∈ tokens := by
  simp only [toPostfix, Conversion.run, Conversion.finish, List.mem_append, List.mem_filter] at member
  have inside : token ∈ (tokens.foldl Conversion.take ⟨[], []⟩).held := by
    rcases member with output | ⟨waiting, -⟩
    · exact List.mem_append_left _ output
    · exact List.mem_append_right _ waiting
  rcases Conversion.mem_held_foldl inside with there | nowhere
  · exact there
  · cases nowhere

end Reckoner
