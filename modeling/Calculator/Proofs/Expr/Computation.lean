import Calculator.Proofs.Expr.Leaves

/-!
# Values from the bottom up

`Computes` says what the value of an expression is without an order in which
things happen: a number has the value it is read with, and a join the sum, the
difference, the product or the quotient of the values of its operands, as its
operator says.  Evaluation gives this value whenever there is one
(`computes_iff_evaluate`).

An expression is `unplaced` when the spans of its tokens are forgotten.  Two
expressions that are alike unplaced have the same shape, marks, kinds and texts,
and so they compute the same (`computes_unplaced`).
-/

namespace Calculator

/-- A token without its place. -/
def Token.unplaced (t : Token) : Token := .detached t.kind t.text

namespace Expr

/-- The value of an expression. -/
inductive Computes : Expr → Float → Prop
  | leaf {t : Token} {closed : Bool} {x : Float} (hk : t.kind ≠ .name)
      (hread : Numeral.read? t.text = some x) : Computes (leaf t closed) x
  | add {t : Token} {left right : Expr} {closed : Bool} {x y : Float}
      (hk : t.kind = .operator .add) (hleft : Computes left x) (hright : Computes right y) :
      Computes (join t left right closed) (x + y)
  | sub {t : Token} {left right : Expr} {closed : Bool} {x y : Float}
      (hk : t.kind = .operator .sub) (hleft : Computes left x) (hright : Computes right y) :
      Computes (join t left right closed) (x - y)
  | mul {t : Token} {left right : Expr} {closed : Bool} {x y : Float}
      (hk : t.kind = .operator .mul) (hleft : Computes left x) (hright : Computes right y) :
      Computes (join t left right closed) (x * y)
  | div {t : Token} {left right : Expr} {closed : Bool} {x y : Float}
      (hk : t.kind = .operator .div) (hleft : Computes left x) (hright : Computes right y) :
      Computes (join t left right closed) (x / y)

/-- An expression without the places of its tokens. -/
def unplaced : Expr → Expr
  | leaf token closed => leaf token.unplaced closed
  | join token left right closed => join token.unplaced left.unplaced right.unplaced closed

section

variable {e left right : Expr} {t : Token} {closed : Bool} {x y : Float}

theorem computes_leaf :
    (leaf t closed).Computes x ↔ t.kind ≠ .name ∧ Numeral.read? t.text = some x := by
  constructor
  · intro h
    cases h with
    | leaf hk hread => exact ⟨hk, hread⟩
  · rintro ⟨hk, hread⟩
    exact .leaf hk hread

/-- What a join computes is what the operation of its token makes of the values
of its operands. -/
theorem computes_join :
    (join t left right closed).Computes x ↔ ∃ op y z, t.kind = .operator op ∧
      left.Computes y ∧ right.Computes z ∧ op.apply y z = x := by
  constructor
  · intro h
    cases h with
    | add hk hl hr | sub hk hl hr | mul hk hl hr | div hk hl hr =>
      exact ⟨_, _, _, hk, hl, hr, rfl⟩
  · rintro ⟨op, y, z, hk, hl, hr, rfl⟩
    cases op with
    | add => exact .add hk hl hr
    | sub => exact .sub hk hl hr
    | mul => exact .mul hk hl hr
    | div => exact .div hk hl hr

theorem evaluate_leaf_eq_ok_iff :
    (leaf t closed).evaluate = .ok x ↔ t.kind ≠ .name ∧ Numeral.read? t.text = some x := by
  rw [evaluate, Token.value]
  split
  · rename_i hk
    simp [hk]
  · rename_i hk
    split
    · rename_i y hread
      simp [hk, hread]
    · rename_i hread
      simp [hk, hread]

/-- A join has a value when its token is an operator and both operands have one. -/
theorem evaluate_join_eq_ok_iff :
    (join t left right closed).evaluate = .ok x ↔ ∃ op y z, t.kind = .operator op ∧
      left.evaluate = .ok y ∧ right.evaluate = .ok z ∧ op.apply y z = x := by
  constructor
  · intro h
    obtain ⟨kind, text, span⟩ := t
    cases kind with
    | operator op =>
      rw [evaluate] at h
      cases hl : left.evaluate with
      | error err =>
        rw [hl] at h
        cases h
      | ok y =>
        cases hr : right.evaluate with
        | error err =>
          rw [hl, hr] at h
          cases h
        | ok z =>
          rw [hl, hr] at h
          exact ⟨op, y, z, rfl, rfl, rfl, Except.ok.inj h⟩
    | number | name | opening | closing => cases h
  · rintro ⟨op, y, z, hk, hl, hr, rfl⟩
    rw [evaluate, hk, hl, hr]
    rfl

/-- Evaluation finds the value of an expression if there is one. -/
theorem computes_iff_evaluate : e.Computes x ↔ e.evaluate = .ok x := by
  induction e generalizing x with
  | leaf t closed => rw [computes_leaf, evaluate_leaf_eq_ok_iff]
  | join t left right closed ihl ihr =>
    rw [computes_join, evaluate_join_eq_ok_iff]
    simp only [ihl, ihr]

/-- An expression has at most one value. -/
theorem Computes.unique (hx : e.Computes x) (hy : e.Computes y) : x = y := by
  rw [computes_iff_evaluate] at hx hy
  exact Except.ok.inj (hx.symm.trans hy)

/-! ## Without places -/

@[simp] theorem isClosed_unplaced (e : Expr) : e.unplaced.isClosed = e.isClosed := by
  cases e <;> rfl

@[simp] theorem unplaced_ofToken (t : Token) : (ofToken t).unplaced = ofToken t.unplaced := rfl

@[simp] theorem unplaced_ofOperands (t : Token) (left right : Expr) :
    (ofOperands t left right).unplaced =
      ofOperands t.unplaced left.unplaced right.unplaced := by
  simp [ofOperands, unplaced]

theorem leaves_unplaced (e : Expr) : e.unplaced.leaves = e.leaves.map Token.unplaced := by
  induction e with
  | leaf t closed => rfl
  | join t left right closed ihl ihr => simp [unplaced, leaves, ihl, ihr]

/-- The names that are left do not depend on places. -/
theorem exists_name_unplaced {name : String} :
    (∃ t ∈ e.unplaced.leaves, t.kind = .name ∧ t.text = name) ↔
      ∃ t ∈ e.leaves, t.kind = .name ∧ t.text = name := by
  rw [leaves_unplaced]
  constructor
  · rintro ⟨t, ht, hk, htext⟩
    obtain ⟨u, hu, rfl⟩ := List.mem_map.mp ht
    exact ⟨u, hu, hk, htext⟩
  · rintro ⟨t, ht, hk, htext⟩
    exact ⟨t.unplaced, List.mem_map_of_mem ht, hk, htext⟩

/-- What an expression computes does not depend on places. -/
theorem computes_unplaced : e.unplaced.Computes x ↔ e.Computes x := by
  induction e generalizing x with
  | leaf t closed =>
    rw [unplaced, computes_leaf, computes_leaf]
    rfl
  | join t left right closed ihl ihr =>
    rw [unplaced, computes_join, computes_join]
    simp only [ihl, ihr]
    rfl

end

end Expr

end Calculator
