import Calculator.Expr.Listing

/-!
# The nodes of an expression

Ways to speak of what is inside an expression: `Within` for the expressions it
is made of, `tokens` for its tokens from left to right, and `size` for the
number of its nodes.

An expression is `Marked` when the mark of every node in it is right.  What
`ofToken` and `ofOperands` make is marked (`Marked.ofToken`,
`Marked.ofOperands`).
-/

namespace Calculator.Expr

/-- An expression is within itself, and within a join when it is within one of
the operands. -/
inductive Within (s : Expr) : Expr → Prop
  | self : Within s s
  | left {token : Token} {left right : Expr} {closed : Bool} :
      Within s left → Within s (join token left right closed)
  | right {token : Token} {left right : Expr} {closed : Bool} :
      Within s right → Within s (join token left right closed)

theorem Within.trans {s e e' : Expr} (h : s.Within e) (h' : e.Within e') : s.Within e' := by
  induction h' with
  | self => exact h
  | left _ ih => exact .left ih
  | right _ ih => exact .right ih

/-- The tokens of an expression, each join's between those of its operands. -/
def tokens : Expr → List Token
  | leaf token _ => [token]
  | join token left right _ => left.tokens ++ token :: right.tokens

@[simp] theorem tokens_ofToken (t : Token) : (ofToken t).tokens = [t] := rfl

@[simp] theorem tokens_ofOperands (t : Token) (left right : Expr) :
    (ofOperands t left right).tokens = left.tokens ++ t :: right.tokens := rfl

theorem text_eq_join_tokens (e : Expr) : e.text = String.join (e.tokens.map (·.text)) := by
  induction e with
  | leaf token closed => simp [text_leaf, tokens]
  | join token left right closed ihl ihr =>
    rw [text_join, ihl, ihr]
    simp [tokens, String.append_assoc]

/-- The number of nodes of an expression. -/
def size : Expr → Nat
  | leaf .. => 1
  | join _ left right _ => left.size + right.size + 1

theorem size_ofOperands (t : Token) (left right : Expr) :
    (ofOperands t left right).size = left.size + right.size + 1 := rfl

theorem isClosed_ofToken_eq_false {t : Token} :
    (ofToken t).isClosed = false ↔ t.kind = .name := by
  show decide (t.kind ≠ .name) = false ↔ t.kind = .name
  rw [decide_eq_false_iff_not, Decidable.not_not]

theorem isClosed_ofOperands (t : Token) (left right : Expr) :
    (ofOperands t left right).isClosed = (left.isClosed && right.isClosed) := rfl

/-- The mark of every node says whether a name is left below it. -/
def Marked (e : Expr) : Prop :=
  ∀ s, s.Within e →
    (s.isClosed = false ↔ ∃ t closed, (leaf t closed).Within s ∧ t.kind = .name)

theorem Marked.ofToken (t : Token) : (ofToken t).Marked := by
  intro s hs
  cases hs
  rw [isClosed_ofToken_eq_false]
  constructor
  · intro hk
    exact ⟨t, _, .self, hk⟩
  · rintro ⟨t', closed, hleaf, hk⟩
    cases hleaf
    exact hk

theorem Marked.ofOperands {left right : Expr} (t : Token) (hleft : left.Marked)
    (hright : right.Marked) : (ofOperands t left right).Marked := by
  intro s hs
  cases hs with
  | left hs => exact hleft s hs
  | right hs => exact hright s hs
  | self =>
    rw [isClosed_ofOperands, Bool.and_eq_false_iff, hleft left .self, hright right .self]
    constructor
    · rintro (⟨t', closed, hleaf, hk⟩ | ⟨t', closed, hleaf, hk⟩)
      · exact ⟨t', closed, .left hleaf, hk⟩
      · exact ⟨t', closed, .right hleaf, hk⟩
    · rintro ⟨t', closed, hleaf, hk⟩
      cases hleaf with
      | left hleaf => exact .inl ⟨t', closed, hleaf, hk⟩
      | right hleaf => exact .inr ⟨t', closed, hleaf, hk⟩

end Calculator.Expr
