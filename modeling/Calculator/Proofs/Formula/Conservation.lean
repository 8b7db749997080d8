import Calculator.Proofs.Formula.Brackets
import Calculator.Proofs.Formula.Leaves
import Mathlib.Data.List.Perm.Basic

/-!
# Nothing is lost

What becomes of the tokens of a formula: operands become its leaves, operators
its joins, and brackets leave no trace.

`Calculator.Proofs.Formula.Leaves` follows the operands.  For the operators,
`heldOperators` are those that an assembly has, in its operands and waiting.  A
join moves one of them from the second place to the first, and so a run holds
the operators that it has taken (`heldOperators_of_takeAll`).

`conserved_of_ofTokens` puts this together for whole formulas.  Nothing is
assumed of the order in which operands and operators come.
-/

namespace Calculator

open Assembly

/-- Operators are the kinds that join two operands. -/
def Kind.isOperator (kind : Kind) : Bool := kind.operation?.isSome

theorem Kind.isOperator_iff {kind : Kind} :
    kind.isOperator = true ↔ ∃ op, kind = .operator op := by
  cases kind <;> simp [isOperator, operation?]

theorem Kind.isOperator_of_operand {kind : Kind} (h : kind.isOperand = true) :
    kind.isOperator = false := by
  cases kind <;> first | rfl | cases h

namespace Expr

/-- The tokens of the joins, each between those of its operands. -/
def joints : Expr → List Token
  | leaf .. => []
  | join token left right _ => left.joints ++ token :: right.joints

@[simp] theorem joints_ofToken (t : Token) : (ofToken t).joints = [] := rfl

@[simp] theorem joints_ofOperands (t : Token) (left right : Expr) :
    (ofOperands t left right).joints = left.joints ++ t :: right.joints := rfl

theorem mem_tokens {t : Token} {e : Expr} : t ∈ e.tokens ↔ t ∈ e.leaves ∨ t ∈ e.joints := by
  induction e with
  | leaf token closed => simp [tokens, leaves, joints]
  | join token left right closed ihl ihr =>
    simp only [tokens, leaves, joints, List.mem_append, List.mem_cons, ihl, ihr]
    tauto

end Expr

/-! ## Operators on the two stacks -/

/-- The operator that an entry waits with. -/
def Waiting.operator? : Waiting → Option Token
  | operator _ token => some token
  | group .. => none

/-- The operators that have joined the operands `es` and those that wait. -/
def heldOperators (w : List Waiting) (es : List Expr) : List Token :=
  es.flatMap Expr.joints ++ w.filterMap Waiting.operator?

section

variable {ts us : List Token} {w w' : List Waiting} {xs ys : Stack Expr} {a b : Assembly}
  {t : Token}

theorem heldOperators_of_join {op : Operation}
    (h : (heldOperators (.operator op t :: w) xs.items).Perm us) (hj : join t xs = .ok ys) :
    (heldOperators w ys.items).Perm us := by
  obtain ⟨upper, lower, rest, hxs, hys⟩ := items_of_join hj
  refine List.Perm.trans ?_ h
  rw [hxs, hys, heldOperators, heldOperators, List.perm_iff_count]
  intro u
  simp only [List.flatMap_cons, Expr.joints_ofOperands, Waiting.operator?, List.filterMap_cons,
    List.count_append, List.count_cons]
  omega

theorem heldOperators_of_reduce {p : Nat} (h : (heldOperators w xs.items).Perm us)
    (hr : reduce p w xs = .ok (w', ys)) : (heldOperators w' ys.items).Perm us :=
  reduce_induction (P := fun w xs => (heldOperators w xs.items).Perm us) heldOperators_of_join hr h

/-- A token that is no operator adds none. -/
theorem filter_isOperator_concat (ht : t.kind.isOperator = false) :
    (ts ++ [t]).filter (·.kind.isOperator) = ts.filter (·.kind.isOperator) := by
  simp [ht]

theorem heldOperators_of_step
    (h : (heldOperators a.waiting a.operands.items).Perm (ts.filter (·.kind.isOperator)))
    (hstep : Step a t b) :
    (heldOperators b.waiting b.operands.items).Perm ((ts ++ [t]).filter (·.kind.isOperator)) := by
  cases hstep with
  | operand hk =>
    rw [filter_isOperator_concat (Kind.isOperator_of_operand hk)]
    exact h
  | @operator op w xs hk hr =>
    have ht : t.kind.isOperator = true := Kind.isOperator_iff.mpr ⟨op, hk⟩
    have hadded := (heldOperators_of_reduce h hr).append_right [t]
    rw [heldOperators, List.append_assoc] at hadded
    have hfilter : [t].filter (·.kind.isOperator) = [t] := List.filter_cons_of_pos ht
    rw [List.filter_append, hfilter]
    exact ((List.perm_append_singleton t _).symm.append_left _).trans hadded
  | opening hk =>
    rw [filter_isOperator_concat (by rw [hk]; rfl)]
    exact h
  | closing hk hr =>
    rw [filter_isOperator_concat (by rw [hk]; rfl)]
    have hjoined := heldOperators_of_reduce h hr
    rw [heldOperators, List.filterMap_cons_none rfl] at hjoined
    exact hjoined

/-- A run holds the operators that it has taken. -/
theorem heldOperators_of_takeAll (h : takeAll {} ts = .ok a) :
    (heldOperators a.waiting a.operands.items).Perm (ts.filter (·.kind.isOperator)) :=
  takeAll_induction (P := fun ts a =>
    (heldOperators a.waiting a.operands.items).Perm (ts.filter (·.kind.isOperator)))
    (fun h hstep => heldOperators_of_step h hstep) h (List.Perm.refl _)

/-! ## Formulas -/

/-- The formula `f` is made of the tokens `ts` and of nothing else. -/
structure Conserved (ts : List Token) (f : Formula) : Prop where
  /-- The leaves are the operands in their order. -/
  leaves : f.root.leaves = ts.filter (·.kind.isOperand)
  /-- The joins have the operators, each as often as it is there. -/
  joints : f.root.joints.Perm (ts.filter (·.kind.isOperator))
  /-- Every join has an operator for its token. -/
  operators : ∀ t ∈ f.root.joints, ∃ op, t.kind = .operator op
  /-- No bracket is left. -/
  unbracketed : ∀ t ∈ f.root.tokens, t.kind.isBracket = false
  /-- The names are those of the leaves. -/
  names : ∀ name, name ∈ f.names ↔ ∃ t ∈ f.root.leaves, t.kind = .name ∧ t.text = name

theorem joints_of_ofTokens {f : Formula} (h : Formula.ofTokens ts = .ok f) :
    f.root.joints.Perm (ts.filter (·.kind.isOperator)) := by
  obtain ⟨a, hts, hfinish⟩ := ofTokens_eq_ok_iff.mp h
  obtain ⟨xs, root, hr, hroot, -, rfl⟩ := finish_eq_ok_iff.mp hfinish
  have hheld := heldOperators_of_reduce (heldOperators_of_takeAll hts) hr
  rw [hroot, heldOperators, List.flatMap_singleton, List.filterMap_nil, List.append_nil] at hheld
  exact hheld

/-- A name among the leaves is a name among the tokens. -/
theorem mem_names_iff_leaves {f : Formula} (h : Formula.ofTokens ts = .ok f) (name : String) :
    name ∈ f.names ↔ ∃ t ∈ f.root.leaves, t.kind = .name ∧ t.text = name := by
  rw [mem_names_of_ofTokens h, leaves_of_ofTokens h]
  refine exists_congr fun t => ?_
  rw [List.mem_filter, and_assoc, and_congr_right_iff]
  intro _
  constructor
  · rintro ⟨hk, htext⟩
    exact ⟨by rw [hk]; rfl, hk, htext⟩
  · exact And.right

/-- A formula is made of the tokens it was assembled from, whatever their
order. -/
theorem conserved_of_ofTokens {f : Formula} (h : Formula.ofTokens ts = .ok f) :
    Conserved ts f := by
  have hleaves := leaves_of_ofTokens h
  have hjoints := joints_of_ofTokens h
  have hoperators : ∀ t ∈ f.root.joints, ∃ op, t.kind = .operator op := by
    intro t ht
    exact Kind.isOperator_iff.mp (List.mem_filter.mp (hjoints.mem_iff.mp ht)).2
  refine ⟨hleaves, hjoints, hoperators, ?_, mem_names_iff_leaves h⟩
  intro t ht
  rcases Expr.mem_tokens.mp ht with ht | ht
  · rw [hleaves] at ht
    exact isBracket_of_operand (List.mem_filter.mp ht).2
  · obtain ⟨op, hk⟩ := hoperators t ht
    exact isBracket_of_operator hk

/-- In `1 x + (y) *` the operators do not stand between their operands. -/
theorem conserved_of_ofTokens_postfix :
    let ts : List Token := [⟨.number, "1", ⟨0, 1⟩⟩, ⟨.name, "x", ⟨2, 3⟩⟩,
      ⟨.operator .add, "+", ⟨4, 5⟩⟩, ⟨.opening, "(", ⟨6, 7⟩⟩, ⟨.name, "y", ⟨7, 8⟩⟩,
      ⟨.closing, ")", ⟨8, 9⟩⟩, ⟨.operator .mul, "*", ⟨10, 11⟩⟩]
    ∃ f, Formula.ofTokens ts = .ok f ∧ Conserved ts f ∧ f.root.text = "1+x*y" :=
  ⟨_, rfl, conserved_of_ofTokens rfl, rfl⟩

end

end Calculator
