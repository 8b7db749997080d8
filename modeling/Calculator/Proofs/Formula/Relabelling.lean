import Calculator.Proofs.Formula.Agreement
import Calculator.Proofs.Formula.Leaves
import Calculator.Proofs.Formula.Order
import Mathlib.Data.List.Forall2

/-!
# Other tokens, the same shape

A `Relabelling` changes tokens without changing what an assembly asks of them.
Operators and brackets keep their kinds and operands stay operands, but texts and
spans may be anything, and a name may become a number.

Relabelling before an assembly and relabelling after it come to the same
(`ofTokens_relabel`): a run with the tokens and a run with the relabelled ones go
side by side, and at every step the operands of the second are those of the
first, relabelled (`Relabelling.correspondence`).

Giving names their numbers is a relabelling, `Relabelling.resolve`, and on the
expression of a formula it does what a substitution does
(`Built.relabel_resolve`).
-/

namespace Calculator

/-- A change of tokens that an assembly does not notice. -/
structure Relabelling where
  apply : Token → Token
  /-- Operands stay operands. -/
  isOperand : ∀ t, t.kind.isOperand = true → (apply t).kind.isOperand = true
  /-- Everything else keeps its kind. -/
  kind : ∀ t, t.kind.isOperand = false → (apply t).kind = t.kind

namespace Relabelling

theorem isOperand_apply (f : Relabelling) (t : Token) :
    (f.apply t).kind.isOperand = t.kind.isOperand := by
  cases ht : t.kind.isOperand with
  | true => exact f.isOperand t ht
  | false => rw [f.kind t ht, ht]

/-- Turns the names that have a number into numbers. -/
def resolve (bindings : Bindings) : Relabelling where
  apply := Token.resolve bindings
  isOperand := by
    intro t ht
    rcases t.bound_or_unbound bindings with ⟨value, hk, hb⟩ | h
    · rw [Token.resolve_bound hk hb]
      rfl
    · rw [Token.resolve_unbound h, ht]
  kind := by
    intro t ht
    rw [Token.resolve_unbound]
    intro hk
    rw [hk] at ht
    cases ht

end Relabelling

namespace Expr

/-- The expression that is made anew of the relabelled tokens. -/
def relabel (f : Relabelling) : Expr → Expr
  | leaf token _ => ofToken (f.apply token)
  | join token left right _ => ofOperands (f.apply token) (left.relabel f) (right.relabel f)

theorem relabel_ofToken (f : Relabelling) (t : Token) :
    (ofToken t).relabel f = ofToken (f.apply t) := rfl

theorem relabel_ofOperands (f : Relabelling) (t : Token) (left right : Expr) :
    (ofOperands t left right).relabel f =
      ofOperands (f.apply t) (left.relabel f) (right.relabel f) := rfl

/-- A substitution relabels the leaves, and a join that is an operator's has no
name to resolve. -/
theorem Built.relabel_resolve {e : Expr} (h : e.Built) (hkinds : e.WellKinded)
    (bindings : Bindings) : e.relabel (.resolve bindings) = e.substitute bindings := by
  induction h with
  | ofToken t =>
    rw [substitute_ofToken]
    rfl
  | @ofOperands left right t _ _ ihl ihr =>
    obtain ⟨⟨op, hop⟩, hleft, hright⟩ := hkinds
    have ht : t.resolve bindings = t := by
      refine Token.resolve_unbound fun hk => ?_
      rw [hop] at hk
      cases hk
    rw [relabel_ofOperands, ihl hleft, ihr hright]
    exact congrArg (Expr.ofOperands · _ _) ht

end Expr

/-! ## Assemblies of relabelled tokens -/

/-- An assembly of the relabelled tokens has the operands relabelled. -/
theorem Relabelling.correspondence (f : Relabelling) :
    Correspondence (fun t u => u = f.apply t) (fun xs ys => ys = xs.map (·.relabel f)) where
  isOperand := by
    rintro t _ rfl
    rw [f.isOperand_apply]
  kind := by
    rintro t _ rfl ht
    rw [f.kind t ht]
  length := by
    rintro xs _ rfl
    rw [List.length_map]
  push := by
    rintro t _ xs _ rfl _ rfl
    rfl
  join := by
    rintro t _ lower lower' upper upper' xs ys rfl h
    obtain ⟨rfl, htail⟩ := List.cons.inj h
    obtain ⟨rfl, rfl⟩ := List.cons.inj htail
    rfl

theorem agree_relabel (f : Relabelling) (ts : List Token) :
    Agree (fun g g' => g'.root = g.root.relabel f) (Formula.ofTokens ts)
      (Formula.ofTokens (ts.map f.apply)) := by
  have hts : List.Forall₂ (fun t u => u = f.apply t) ts (ts.map f.apply) :=
    List.forall₂_map_right_iff.mpr (List.forall₂_same.mpr fun _ _ => rfl)
  refine (f.correspondence.agree_ofTokens rfl hts).mono fun g g' _ hroots => ?_
  exact (List.cons.inj hroots).1

/-- Relabelled tokens make a formula exactly when the tokens do, and its root is
the root for the tokens, relabelled and made anew; otherwise both fail with the
same fault.  In particular, names may be given their numbers before the tokens
are assembled as well as by a substitution after it. -/
theorem ofTokens_relabel (f : Relabelling) (bindings : Bindings) (ts : List Token) :
    Agree (fun g g' => g'.root = g.root.relabel f) (Formula.ofTokens ts)
        (Formula.ofTokens (ts.map f.apply)) ∧
      Agree (fun g g' => g'.root = (g.substitute bindings).root) (Formula.ofTokens ts)
        (Formula.ofTokens (ts.map (Token.resolve bindings))) := by
  refine ⟨agree_relabel f ts, ?_⟩
  refine (agree_relabel (.resolve bindings) ts).mono fun g g' hg hroot => ?_
  rw [hroot]
  exact (built_of_ofTokens hg).relabel_resolve (wellKinded_of_ofTokens hg) bindings

end Calculator
