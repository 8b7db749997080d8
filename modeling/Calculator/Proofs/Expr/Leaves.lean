import Calculator.Formula.Basic
import Calculator.Proofs.Expr.Nodes

/-!
# Leaves, and what a substitution makes of them

An expression is `Built` when it was made with `ofToken` and `ofOperands` alone.
Such an expression is marked rightly (`Built.marked`), so that its own mark says
whether a name is left among its leaves (`Built.isClosed_iff`).

A substitution keeps the shape of an expression.  It resolves the leaves one by
one (`leaves_substitute`), and what it makes of a built expression is built
(`Built.substitute`).  `openLeaves` are the names that are left, and those that
a substitution leaves are the ones it does not bind (`openLeaves_substitute`).
-/

namespace Calculator

/-- What a substitution makes of the token of a leaf. -/
def Token.resolve (bindings : Bindings) (t : Token) : Token :=
  if t.kind = .name then
    match bindings[t.text]? with
    | some value => ⟨.number, Numeral.write value, t.span⟩
    | none => t
  else t

section

variable {bindings : Bindings} {t : Token}

theorem Token.resolve_bound {value : Float} (hk : t.kind = .name)
    (h : bindings[t.text]? = some value) :
    t.resolve bindings = ⟨.number, Numeral.write value, t.span⟩ := by
  rw [resolve, if_pos hk, h]

theorem Token.resolve_unbound (h : t.kind = .name → bindings[t.text]? = none) :
    t.resolve bindings = t := by
  by_cases hk : t.kind = .name
  · rw [resolve, if_pos hk, h hk]
  · rw [resolve, if_neg hk]

theorem Token.bound_or_unbound (bindings : Bindings) (t : Token) :
    (∃ value, t.kind = .name ∧ bindings[t.text]? = some value) ∨
      (t.kind = .name → bindings[t.text]? = none) := by
  by_cases hk : t.kind = .name
  · cases hb : bindings[t.text]? with
    | some value => exact .inl ⟨value, hk, rfl⟩
    | none => exact .inr fun _ => rfl
  · exact .inr fun h => absurd h hk

/-- What is still a name was one before, and has not been given a number. -/
theorem Token.kind_resolve_eq_name :
    (t.resolve bindings).kind = .name ↔ t.kind = .name ∧ t.text ∉ bindings := by
  rw [Std.ExtTreeMap.mem_iff_isSome_getElem?]
  rcases t.bound_or_unbound bindings with ⟨value, hk, hb⟩ | h
  · rw [resolve_bound hk hb, hb]
    simp
  · rw [resolve_unbound h, iff_self_and]
    intro hk
    rw [h hk]
    nofun

end

namespace Expr

section

variable {bindings : Bindings} {t : Token} {closed : Bool} {e left right : Expr}

/-! ## Substitution, constructor by constructor -/

theorem substitute_leaf_bound {value : Float} (hk : t.kind = .name)
    (h : bindings[t.text]? = some value) :
    (leaf t closed).substitute bindings = leaf ⟨.number, Numeral.write value, t.span⟩ true := by
  simp [substitute, resolve, refresh, hk, h]

theorem substitute_leaf_unbound (h : t.kind = .name → bindings[t.text]? = none) :
    (leaf t closed).substitute bindings = leaf t closed := by
  by_cases hk : t.kind = .name
  · simp [substitute, resolve, refresh, hk, h hk]
  · simp [substitute, resolve, refresh, hk]

theorem substitute_join (bindings : Bindings) (t : Token) (left right : Expr) (closed : Bool) :
    (join t left right closed).substitute bindings =
      ofOperands t (left.substitute bindings) (right.substitute bindings) := rfl

theorem substitute_ofToken (bindings : Bindings) (t : Token) :
    (ofToken t).substitute bindings = ofToken (t.resolve bindings) := by
  rcases t.bound_or_unbound bindings with ⟨value, hk, hb⟩ | h
  · rw [Token.resolve_bound hk hb, ofToken, substitute_leaf_bound hk hb]
    rfl
  · rw [Token.resolve_unbound h, ofToken, substitute_leaf_unbound h]

/-! ## Built expressions -/

/-- The expressions that are made with `ofToken` and `ofOperands` alone, of
tokens of any kind. -/
inductive Built : Expr → Prop
  | ofToken (t : Token) : Built (ofToken t)
  | ofOperands {left right : Expr} (t : Token) (hleft : Built left) (hright : Built right) :
      Built (ofOperands t left right)

theorem Built.leaf_eq (h : (leaf t closed).Built) : leaf t closed = Expr.ofToken t := by
  cases h
  rfl

theorem Built.join_eq (h : (join t left right closed).Built) :
    join t left right closed = Expr.ofOperands t left right ∧ left.Built ∧ right.Built := by
  cases h with
  | ofOperands t hleft hright => exact ⟨rfl, hleft, hright⟩

theorem Built.marked (h : e.Built) : e.Marked := by
  induction h with
  | ofToken t => exact .ofToken t
  | ofOperands t _ _ ihl ihr => exact .ofOperands t ihl ihr

theorem Built.substitute (h : e.Built) (bindings : Bindings) : (e.substitute bindings).Built := by
  induction h with
  | ofToken t =>
    rw [substitute_ofToken]
    exact .ofToken _
  | ofOperands t _ _ ihl ihr => exact .ofOperands t ihl ihr

/-! ## Leaves -/

/-- The tokens of the leaves, from left to right. -/
def leaves : Expr → List Token
  | leaf token _ => [token]
  | join _ left right _ => left.leaves ++ right.leaves

@[simp] theorem leaves_ofToken (t : Token) : (ofToken t).leaves = [t] := rfl

@[simp] theorem leaves_ofOperands (t : Token) (left right : Expr) :
    (ofOperands t left right).leaves = left.leaves ++ right.leaves := rfl

theorem mem_leaves : t ∈ e.leaves ↔ ∃ closed, (leaf t closed).Within e := by
  induction e with
  | leaf token closed =>
    rw [leaves, List.mem_singleton]
    constructor
    · rintro rfl
      exact ⟨closed, .self⟩
    · rintro ⟨_, ⟨⟩⟩
      rfl
  | join token left right closed ihl ihr =>
    rw [leaves, List.mem_append, ihl, ihr]
    constructor
    · rintro (⟨closed', h⟩ | ⟨closed', h⟩)
      · exact ⟨closed', .left h⟩
      · exact ⟨closed', .right h⟩
    · rintro ⟨closed', h⟩
      cases h with
      | left h => exact .inl ⟨closed', h⟩
      | right h => exact .inr ⟨closed', h⟩

theorem leaves_substitute (bindings : Bindings) (e : Expr) :
    (e.substitute bindings).leaves = e.leaves.map (Token.resolve bindings) := by
  induction e with
  | leaf t closed =>
    rcases t.bound_or_unbound bindings with ⟨value, hk, hb⟩ | h
    · rw [substitute_leaf_bound hk hb, leaves, leaves, List.map_singleton,
        Token.resolve_bound hk hb]
    · rw [substitute_leaf_unbound h, leaves, List.map_singleton, Token.resolve_unbound h]
  | join t left right closed ihl ihr =>
    rw [substitute_join, leaves_ofOperands, ihl, ihr, leaves, List.map_append]

/-! ## The names that are left -/

/-- The leaves that are names. -/
def openLeaves (e : Expr) : List Token := e.leaves.filter (·.kind = .name)

theorem Built.isClosed_iff (h : e.Built) : e.isClosed = true ↔ e.openLeaves = [] := by
  have hmark := h.marked e .self
  rw [← Bool.not_eq_false, hmark, openLeaves, List.filter_eq_nil_iff]
  constructor
  · intro hnone t ht
    obtain ⟨closed, hleaf⟩ := mem_leaves.mp ht
    simpa using fun hk => hnone ⟨t, closed, hleaf, hk⟩
  · rintro hnone ⟨t, closed, hleaf, hk⟩
    exact hnone t (mem_leaves.mpr ⟨closed, hleaf⟩) (by simpa using hk)

theorem openLeaves_substitute (bindings : Bindings) (e : Expr) :
    (e.substitute bindings).openLeaves = e.openLeaves.filter (·.text ∉ bindings) := by
  have hfilter : ((fun t : Token => decide (t.kind = .name)) ∘ Token.resolve bindings) =
      fun t : Token => decide (t.text ∉ bindings) && decide (t.kind = .name) := by
    funext t
    simp [Token.kind_resolve_eq_name, Bool.and_comm]
  rw [openLeaves, leaves_substitute, openLeaves, List.filter_map, List.filter_filter, hfilter]
  -- A token that is still a name has not been changed.
  have hsame : ∀ t ∈ e.leaves.filter fun t => t.text ∉ bindings && t.kind = .name,
      t.resolve bindings = id t := by
    intro t ht
    have hmem := (List.mem_filter.mp ht).2
    rw [Bool.and_eq_true, decide_eq_true_eq] at hmem
    exact Token.resolve_unbound fun _ => Std.ExtTreeMap.getElem?_eq_none hmem.1
  rw [List.map_congr_left hsame, List.map_id]

end

end Expr

end Calculator
