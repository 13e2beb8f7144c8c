import Reckoner.Proofs.Reading

/-!
# Texts that read back

A token reads back after another when its own text, with a stop behind it, is read as that token.
Tokens that read back one after the other can be written with single blanks between their texts: what
is read from that is the tokens.
-/

set_option autoImplicit false

namespace Reckoner

open Text

namespace Token

/-- The text of a token is read as the token after the given one, whatever follows the stop. -/
def ReadsBack (previous : Option Token) (token : Token) : Prop :=
  ∀ rest, Stops rest →
    Piece.read previous (token.text.toList ++ rest) = token :: Piece.read (some token) rest

def AllReadBack (previous : Option Token) : List Token → Prop
  | [] => True
  | token :: rest => ReadsBack previous token ∧ AllReadBack (some token) rest

theorem allReadBack_append {previous : Option Token} {tokens others : List Token}
    (first : AllReadBack previous tokens)
    (second : AllReadBack (tokens.getLast?.or previous) others) :
    AllReadBack previous (tokens ++ others) := by
  induction tokens generalizing previous with
  | nil => exact second
  | cons token tokens inner =>
    refine ⟨first.1, inner first.2 ?_⟩
    rw [List.getLast?_cons] at second
    cases last : tokens.getLast? with
    | none => simpa [last] using second
    | some _ => simpa [last] using second

theorem read_intercalate {previous : Option Token} {tokens : List Token}
    (back : AllReadBack previous tokens) :
    Piece.read previous ([' '].intercalate (tokens.map (·.text.toList))) = tokens := by
  induction tokens generalizing previous with
  | nil => simp
  | cons token rest inner =>
    obtain ⟨first, others⟩ := back
    have following := inner others
    cases rest with
    | nil => simpa using first [] stops_nil
    | cons next rest =>
      have blank : isStop ' ' = true := by
        decide
      rw [List.map_cons, List.map_cons, List.intercalate_cons_cons, List.append_assoc,
        List.cons_append, List.nil_append, first _ (stops_cons blank _),
        Piece.read_blank (by decide)]
      rw [List.map_cons] at following
      rw [following]

theorem tokenize_intercalate {tokens : List Token} (back : AllReadBack none tokens) :
    tokenize (String.intercalate " " (tokens.map text)) = tokens := by
  rw [Piece.tokenize_eq_read, String.toList_intercalate, List.map_map]
  exact read_intercalate back

/-! ## The kinds of token that read back -/

theorem readsBack_numeral {numeral : Numeral} (written : numeral.IsWritten)
    (previous : Option Token) :
    ReadsBack previous (.ofNumber (String.ofList numeral.chars) (numeral.toFloat false)) := by
  intro rest stops
  have found := Piece.read_numeral written stops previous
  simpa [ofNumber] using found

theorem readsBack_signed {numeral : Numeral} (written : numeral.IsWritten) (sign : Sign)
    {previous : Option Token} (unary : isUnaryAfter previous = true) :
    ReadsBack previous (.ofNumber (String.ofList (sign.char :: numeral.chars))
      (numeral.toFloat (sign = .minus))) := by
  intro rest stops
  have found := Piece.read_signed written sign stops unary
  simpa [ofNumber] using found

theorem readsBack_word {word : String} (isWord : Text.isWord word = true)
    (same : (ofWord word).text = word) (previous : Option Token) :
    ReadsBack previous (ofWord word) := by
  intro rest stops
  rw [same]
  exact Piece.read_word isWord stops previous

theorem readsBack_leftParen (previous : Option Token) : ReadsBack previous leftParen := by
  intro rest _
  exact Piece.read_leftParen previous rest

theorem readsBack_rightParen {previous : Option Token}
    (filled : previous.any (·.kind = .leftParen) = false) : ReadsBack previous rightParen := by
  intro rest _
  exact Piece.read_rightParen filled rest

/-- An operator reads back after an operand; a sign would be read otherwise elsewhere. -/
theorem readsBack_operator {text : String} (isOperator : text ∈ operatorTexts)
    {previous : Option Token} (binary : isUnaryAfter previous = false) :
    ReadsBack previous (operator text) := by
  intro rest _
  simp only [operatorTexts, List.mem_cons, List.not_mem_nil, or_false] at isOperator
  rcases isOperator with rfl | rfl | rfl | rfl | rfl | rfl | rfl
  · exact Piece.read_operator_sign .plus binary rest
  · exact Piece.read_operator_sign .minus binary rest
  · exact @Piece.read_operator '*' (by decide) previous rest
  · exact @Piece.read_operator '/' (by decide) previous rest
  · exact @Piece.read_operator '^' (by decide) previous rest
  · exact @Piece.read_operator '!' (by decide) previous rest
  · exact @Piece.read_operator '=' (by decide) previous rest

end Token

/-- A text that is a numeral as a whole is one token. -/
theorem tokenize_chars {signed : SignedNumeral} (written : signed.numeral.IsWritten) :
    tokenize (String.ofList signed.chars) =
      [.ofNumber (String.ofList signed.chars) signed.toFloat] := by
  have back : Token.ReadsBack none (.ofNumber (String.ofList signed.chars) signed.toFloat) := by
    obtain ⟨sign, numeral⟩ := signed
    cases sign with
    | none => exact Token.readsBack_numeral written none
    | some sign =>
      have signed := @Token.readsBack_signed numeral written sign none rfl
      simpa [SignedNumeral.chars, SignedNumeral.toFloat] using signed
  have alone := back [] stops_nil
  rwa [List.append_nil, Piece.read_nil] at alone

end Reckoner
