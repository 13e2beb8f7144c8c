import Reckoner.Proofs.Grammar
import Reckoner.Token.Lexing

/-!
# Phrases

The grammar of expressions with its repetitions spelt out:

    primary    ::= operand | '(' assignment ')'
    suffixed   ::= primary unit*
    call       ::= function call | suffixed
    factorial  ::= call '!'*
    power      ::= factorial ('^' factorial)*
    product    ::= power (('*' | '/') power)*
    sum        ::= product (('+' | '-') product)*
    assignment ::= sum ('=' sum)*

A repetition groups to the left. The grammar names the symbols of each repetition and knows nothing
of precedences; that these sort the symbols in the same way is what makes a phrase derivable, and
so what makes the conversion to postfix order right.
-/

set_option autoImplicit false

namespace Reckoner

/-- The kinds of phrases, from the tightest to the loosest. -/
inductive PhraseKind where
  | primary
  | suffixed
  | call
  | factorial
  | power
  | product
  | sum
  | assignment
  deriving Repr, DecidableEq

namespace PhraseKind

/-- What a kind of phrase repeats, and the symbols that stand between the repetitions. -/
def repeated? : PhraseKind → Option (PhraseKind × List String)
  | power => some (factorial, ["^"])
  | product => some (power, ["*", "/"])
  | sum => some (product, ["+", "-"])
  | assignment => some (sum, ["="])
  | _ => none

/-- The least precedence outside parentheses in a phrase. -/
def level : PhraseKind → Nat
  | primary | suffixed => 7
  | call => 6
  | factorial => 5
  | power => 4
  | product => 3
  | sum => 2
  | assignment => 1

end PhraseKind

/-- An operator in a repetition with the phrase behind it. -/
structure Link where
  operator : Token
  tokens : List Token
  tree : Tree
  deriving Repr

namespace Link

def written (link : Link) : List Token :=
  link.operator :: link.tokens

/-- The tree in front of a link becomes the left operand. -/
def join (left : Tree) (link : Link) : Tree :=
  .binary link.operator left link.tree

end Link

/-- A mark behind a tree, a unit or a factorial, has the whole tree for its operand. -/
def Tree.mark (operand : Tree) (mark : Token) : Tree :=
  .unary mark operand

/-- Tokens that are a phrase of a kind, and the tree of the phrase. -/
inductive Phrase : PhraseKind → List Token → Tree → Prop where
  | operand {token : Token} :
      token.isOperand = true → token.text.isEmpty = false → Phrase .primary [token] (.leaf token)
  | group {opening closing : Token} {tokens : List Token} {tree : Tree} :
      opening.kind = .leftParen → opening.text = "(" → closing.kind = .rightParen →
      Phrase .assignment tokens tree → Phrase .primary (opening :: tokens ++ [closing]) tree
  | suffixed {tokens units : List Token} {tree : Tree} :
      Phrase .primary tokens tree →
      (∀ unit ∈ units, unit.kind = .unit ∧ unit.text.isEmpty = false) →
      Phrase .suffixed (tokens ++ units) (units.foldl Tree.mark tree)
  | call {function : Token} {tokens : List Token} {tree : Tree} :
      function.kind = .function → function.text.isEmpty = false → Phrase .call tokens tree →
      Phrase .call (function :: tokens) (.unary function tree)
  | uncalled {tokens : List Token} {tree : Tree} :
      Phrase .suffixed tokens tree → Phrase .call tokens tree
  | factorial {tokens marks : List Token} {tree : Tree} :
      Phrase .call tokens tree → (∀ mark ∈ marks, mark.kind = .operator ∧ mark.text = "!") →
      Phrase .factorial (tokens ++ marks) (marks.foldl Tree.mark tree)
  | repetition {kind inner : PhraseKind} {symbols : List String} {tokens : List Token}
      {tree : Tree} {links : List Link} :
      kind.repeated? = some (inner, symbols) → Phrase inner tokens tree →
      (∀ link ∈ links, link.operator.kind = .operator ∧ link.operator.text ∈ symbols) →
      (∀ link ∈ links, Phrase inner link.tokens link.tree) →
      Phrase kind (tokens ++ links.flatMap Link.written) (links.foldl Link.join tree)

namespace PhraseKind

/-- The symbols of a repetition have the precedence of its level, and what is repeated is of the
next level. -/
theorem repeated_spec {kind inner : PhraseKind} {symbols : List String}
    (repeats : kind.repeated? = some (inner, symbols)) :
    inner.level = kind.level + 1 ∧ 1 ≤ kind.level ∧ kind.level ≤ 4 ∧
      ∀ symbol ∈ symbols, Token.textPrecedence symbol = kind.level := by
  cases kind with
  | power | product | sum | assignment =>
    obtain ⟨rfl, rfl⟩ := Prod.mk.inj (Option.some.inj repeats)
    decide
  | _ => cases repeats

end PhraseKind

namespace Derives

theorem marked {level : Nat} {tokens marks : List Token} {tree : Tree}
    (derived : Derives level tokens tree)
    (step : ∀ mark ∈ marks, ∀ {tokens tree}, Derives level tokens tree →
      Derives level (tokens ++ [mark]) (tree.mark mark)) :
    Derives level (tokens ++ marks) (marks.foldl Tree.mark tree) := by
  induction marks generalizing tokens tree with
  | nil =>
    rw [List.append_nil]
    exact derived
  | cons mark marks inner =>
    have first := step mark List.mem_cons_self derived
    have others := inner first fun other member => step other (List.mem_cons_of_mem mark member)
    rw [List.append_assoc] at others
    exact others

theorem linked {level : Nat} (least : 1 ≤ level) (most : level ≤ 4) {tokens : List Token}
    {tree : Tree} {links : List Link} (derived : Derives level tokens tree)
    (operators : ∀ link ∈ links, link.operator.kind = .operator ∧ link.operator.precedence = level)
    (operands : ∀ link ∈ links, Derives (level + 1) link.tokens link.tree) :
    Derives level (tokens ++ links.flatMap Link.written) (links.foldl Link.join tree) := by
  induction links generalizing tokens tree with
  | nil =>
    rw [List.flatMap_nil, List.append_nil]
    exact derived
  | cons link links inner =>
    obtain ⟨isOperator, atLevel⟩ := operators link List.mem_cons_self
    have first : Derives level (tokens ++ link.written) (Link.join tree link) :=
      .binary isOperator atLevel least most derived (operands link List.mem_cons_self)
    have others := inner first
      (fun other member => operators other (List.mem_cons_of_mem link member))
      (fun other member => operands other (List.mem_cons_of_mem link member))
    rw [List.append_assoc] at others
    exact others

end Derives

namespace Phrase

theorem derives {kind : PhraseKind} {tokens : List Token} {tree : Tree}
    (phrase : Phrase kind tokens tree) : Derives kind.level tokens tree := by
  induction phrase with
  | operand isOperand text => exact .operand isOperand text
  | group isOpening text isClosing _ inner => exact .group isOpening text isClosing inner
  | suffixed _ areUnits inner =>
    exact inner.marked fun unit member _ _ derived =>
      .measured (areUnits unit member).1 (areUnits unit member).2 derived
  | call isFunction text _ inner => exact .call isFunction text inner
  | uncalled _ inner => exact inner.loosen
  | factorial _ areMarks inner =>
    exact inner.loosen.marked fun mark member _ _ derived =>
      .factorial (areMarks mark member).1 (areMarks mark member).2 derived
  | @repetition kind _ _ _ _ _ repeats _ areOperators _ inner others =>
    obtain ⟨next, least, most, level⟩ := PhraseKind.repeated_spec repeats
    rw [next] at inner others
    refine inner.loosen.linked least most (fun link member => ?_) others
    obtain ⟨isOperator, isSymbol⟩ := areOperators link member
    refine ⟨isOperator, ?_⟩
    simpa [Token.precedence, isOperator] using level _ isSymbol

/-- A repetition of one phrase is that phrase. -/
theorem once {kind inner : PhraseKind} {symbols : List String} {tokens : List Token} {tree : Tree}
    (repeats : kind.repeated? = some (inner, symbols)) (phrase : Phrase inner tokens tree) :
    Phrase kind tokens tree := by
  have repeated := @repetition kind inner symbols tokens tree [] repeats phrase nofun nofun
  rwa [List.flatMap_nil, List.append_nil] at repeated

/-- An operand without units, functions and factorials. -/
theorem alone {token : Token} (isOperand : token.isOperand = true)
    (text : token.text.isEmpty = false) : Phrase .factorial [token] (.leaf token) :=
  @factorial [token] [] _ (.uncalled (@suffixed [token] [] _ (.operand isOperand text) nofun)) nofun

/-- The conversion to postfix order parses the grammar: of every phrase it makes the tokens of the
phrase's tree in postfix order, each operator behind its operands. -/
theorem toPostfix_eq_postorder {tokens : List Token} {tree : Tree}
    (phrase : Phrase .assignment tokens tree) : toPostfix tokens = tree.postorder :=
  phrase.derives.toPostfix_eq

/-- A difference of three, in which the second operand is a power of a factorial of a call. -/
theorem toPostfix_eq_postorder_of_differences :
    let number (text : String) (value : Int) : Token := .ofNumber text (Binary64.ofInt value)
    let name : Token := ⟨"x", .name, none⟩
    let unit : Token := ⟨"mb", .unit, none⟩
    let function : Token := ⟨"sqrt", .function, none⟩
    let operator (text : String) : Token := ⟨text, .operator, none⟩
    let tree : Tree :=
      .binary (operator "-")
        (.binary (operator "-") (.leaf (number "8" 8))
          (.binary (operator "^")
            (.unary (operator "!") (.unary function (.unary unit (.leaf name))))
            (.leaf (number "2" 2))))
        (.leaf (number "1" 1))
    Phrase .assignment (tokenize "8 - sqrt(x mb)!^2 - 1") tree ∧
      toPostfix (tokenize "8 - sqrt(x mb)!^2 - 1") =
        [number "8" 8, name, unit, function, operator "!", number "2" 2, operator "^",
          operator "-", number "1" 1, operator "-"] := by
  intro number name unit function operator tree
  have read : tokenize "8 - sqrt(x mb)!^2 - 1" =
      [number "8" 8, operator "-", function, ⟨"(", .leftParen, none⟩, name, unit,
        ⟨")", .rightParen, none⟩, operator "!", operator "^", number "2" 2, operator "-",
        number "1" 1] := by
    decide +kernel
  have argument : Phrase .factorial [name, unit] (.unary unit (.leaf name)) :=
    @factorial _ [] _ (.uncalled (@suffixed [name] [unit] _ (.operand rfl (by decide))
      (by simp [unit]))) nofun
  have group : Phrase .primary
      [⟨"(", .leftParen, none⟩, name, unit, ⟨")", .rightParen, none⟩]
      (.unary unit (.leaf name)) :=
    .group rfl rfl rfl (once rfl (once rfl (once rfl (once rfl argument))))
  have call : Phrase .call
      [function, ⟨"(", .leftParen, none⟩, name, unit, ⟨")", .rightParen, none⟩]
      (.unary function (.unary unit (.leaf name))) :=
    .call rfl (by decide) (.uncalled (@suffixed _ [] _ group nofun))
  have power := @repetition .power .factorial ["^"] _ _
    [⟨operator "^", [number "2" 2], .leaf (number "2" 2)⟩] rfl
    (@factorial _ [operator "!"] _ call (by simp [operator]))
    (by simp [operator]) (by simpa using @alone (number "2" 2) rfl (by decide))
  have eight : Phrase .product [number "8" 8] (.leaf (number "8" 8)) :=
    once rfl (once rfl (alone rfl (by decide)))
  have one : Phrase .product [number "1" 1] (.leaf (number "1" 1)) :=
    once rfl (once rfl (alone rfl (by decide)))
  have sum := @repetition .sum .product ["+", "-"] _ _
    [⟨operator "-", _, _⟩, ⟨operator "-", _, _⟩] rfl eight (by simp [operator])
    (by simpa using ⟨once rfl power, one⟩)
  have phrase : Phrase .assignment (tokenize "8 - sqrt(x mb)!^2 - 1") tree := by
    rw [read]
    exact once rfl sum
  exact ⟨phrase, toPostfix_eq_postorder phrase⟩

end Phrase

end Reckoner
