import Calculator.Proofs.Expr.Leaves
import Calculator.Proofs.Formula.Steps

/-!
# The leaves of a formula

Whatever brackets and operators do to the operands of an assembly, it builds
them, and keeps their leaves in the order of the tokens.  So the leaves of a
formula are the operands among its tokens (`leaves_of_ofTokens`), although its
operators may stand elsewhere than among the tokens.
-/

namespace Calculator

open Assembly

/-- The operands are built, and their leaves are the operands among the tokens
`ts`. -/
structure Gathered (ts : List Token) (xs : Stack Expr) : Prop where
  built : ∀ e ∈ xs.items, e.Built
  leaves : xs.items.reverse.flatMap Expr.leaves = ts.filter (·.kind.isOperand)

namespace Gathered

variable {ts : List Token} {w w' : List Waiting} {xs ys : Stack Expr} {a b : Assembly} {t : Token}

theorem of_join (h : Gathered ts xs) (hj : join t xs = .ok ys) : Gathered ts ys := by
  obtain ⟨upper, lower, rest, hxs, hys⟩ := items_of_join hj
  obtain ⟨hbuilt, hleaves⟩ := h
  rw [hxs] at hbuilt hleaves
  constructor
  · rw [hys]
    intro e he
    rcases List.mem_cons.mp he with rfl | he
    · exact .ofOperands t (hbuilt lower (by simp)) (hbuilt upper (by simp))
    · exact hbuilt e (by simp [he])
  · rw [hys, ← hleaves]
    simp

theorem of_reduce {p : Nat} (h : Gathered ts xs) (hr : reduce p w xs = .ok (w', ys)) :
    Gathered ts ys :=
  reduce_induction (P := fun _ xs => Gathered ts xs) (fun h hj => h.of_join hj) hr h

/-- A token that is no operand adds nothing. -/
theorem concat (h : Gathered ts xs) (ht : t.kind.isOperand = false) : Gathered (ts ++ [t]) xs :=
  ⟨h.built, by simp [h.leaves, ht]⟩

theorem of_step (h : Gathered ts a.operands) (hstep : Step a t b) :
    Gathered (ts ++ [t]) b.operands := by
  cases hstep with
  | operand hk =>
    constructor
    · intro e he
      rcases List.mem_cons.mp he with rfl | he
      · exact .ofToken t
      · exact h.built e he
    · simp [h.leaves, hk]
  | operator hk hr => exact (h.of_reduce hr).concat (by rw [hk]; rfl)
  | opening hk => exact h.concat (by rw [hk]; rfl)
  | closing hk hr => exact (h.of_reduce hr).concat (by rw [hk]; rfl)

end Gathered

section

variable {ts : List Token} {f : Formula}

theorem gathered_of_takeAll {a : Assembly} (h : takeAll {} ts = .ok a) : Gathered ts a.operands :=
  takeAll_induction (P := fun ts a => Gathered ts a.operands) (fun h hstep => h.of_step hstep) h
    ⟨nofun, rfl⟩

theorem gathered_of_ofTokens (h : Formula.ofTokens ts = .ok f) :
    f.root.Built ∧ f.root.leaves = ts.filter (·.kind.isOperand) := by
  obtain ⟨a, hts, hfinish⟩ := ofTokens_eq_ok_iff.mp h
  obtain ⟨xs, root, hr, hroot, -, rfl⟩ := finish_eq_ok_iff.mp hfinish
  obtain ⟨hbuilt, hleaves⟩ := (gathered_of_takeAll hts).of_reduce hr
  rw [hroot] at hbuilt hleaves
  refine ⟨hbuilt root List.mem_cons_self, ?_⟩
  rw [← hleaves, List.reverse_singleton, List.flatMap_singleton]

theorem built_of_ofTokens (h : Formula.ofTokens ts = .ok f) : f.root.Built :=
  (gathered_of_ofTokens h).1

/-- The leaves of a formula are the operands among its tokens. -/
theorem leaves_of_ofTokens (h : Formula.ofTokens ts = .ok f) :
    f.root.leaves = ts.filter (·.kind.isOperand) :=
  (gathered_of_ofTokens h).2

/-- The names that are left in a formula are those among its tokens. -/
theorem openLeaves_of_ofTokens (h : Formula.ofTokens ts = .ok f) :
    f.root.openLeaves = ts.filter (·.kind = .name) := by
  rw [Expr.openLeaves, leaves_of_ofTokens h, List.filter_filter]
  congr 1
  funext t
  cases hk : t.kind <;> simp [Kind.isOperand]

end

end Calculator
