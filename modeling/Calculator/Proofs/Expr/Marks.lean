import Calculator.Proofs.Expr.Environment
import Calculator.Proofs.Expr.Evaluation

/-!
# Marks through substitutions

The mark of a node is set when the node is made.  A substitution sets the marks
of the leaves that it resolves in one pass and those of the joins in another,
and leaves the marks of the other leaves alone.  Evaluation does not look at any
of them.

`Formula.marked_substituteAll` says that all marks are right all the same, after
any number of stages and whatever the tokens are, and that a node that has a
value is marked as closed.
-/

namespace Calculator

namespace Expr

section

variable {s e : Expr} {t : Token} {closed : Bool} {err : EvaluationError} {x : Float}

theorem mem_preorder : s ∈ e.preorder ↔ s.Within e := by
  induction e with
  | leaf token closed =>
    rw [preorder, List.mem_singleton]
    constructor
    · rintro rfl
      exact .self
    · intro h
      cases h
      rfl
  | join token left right closed ihl ihr =>
    rw [preorder, List.mem_cons, List.mem_append, ihl, ihr]
    constructor
    · rintro (rfl | h | h)
      · exact .self
      · exact .left h
      · exact .right h
    · intro h
      cases h with
      | self => exact .inl rfl
      | left h => exact .inr (.inl h)
      | right h => exact .inr (.inr h)

/-- An expression that has a value holds no name. -/
theorem kind_ne_name_of_evaluate (h : e.evaluate = .ok x) (hleaf : (leaf t closed).Within e) :
    t.kind ≠ .name := by
  intro hk
  have hfault : (leaf t closed).fault? = some t.unresolved := by
    rw [fault?, if_pos hk]
  have hmem : t.unresolved ∈ e.faults :=
    List.mem_filterMap.mpr ⟨_, mem_preorder.mpr hleaf, hfault⟩
  rw [exists_value_iff_faults.mp ⟨x, h⟩] at hmem
  cases hmem

theorem Marked.of_within (h : e.Marked) (hs : s.Within e) : s.Marked :=
  fun s' hs' => h s' (hs'.trans hs)

theorem Marked.isClosed_of_evaluate (hmarked : e.Marked) (h : e.evaluate = .ok x) :
    e.isClosed = true := by
  by_contra hopen
  obtain ⟨t, closed, hleaf, hk⟩ := (hmarked e .self).mp (Bool.eq_false_of_not_eq_true hopen)
  exact kind_ne_name_of_evaluate h hleaf hk

end

end Expr

theorem Formula.built_substituteAll {f : Formula} (h : f.root.Built) (stages : List Bindings) :
    (f.substituteAll stages).root.Built :=
  substituteAll_induction (P := fun g => g.root.Built) (fun bindings _ h => h.substitute bindings)
    h stages

/-- After any stages, the mark of every node of a formula says whether a name is
left below it; so a node that has a value is marked as closed. -/
theorem Formula.marked_substituteAll {f : Formula} (h : f.root.Built) (stages : List Bindings) :
    (f.substituteAll stages).root.Marked ∧
      ∀ (s : Expr) (x : Float), s.Within (f.substituteAll stages).root → s.evaluate = .ok x →
        s.isClosed = true := by
  have hmarked := (built_substituteAll h stages).marked
  refine ⟨hmarked, ?_⟩
  intro s x hs hx
  exact (hmarked.of_within hs).isClosed_of_evaluate hx

/-- A number that joins a name and an operator is marked as closed once the name
has a number, and its left operand has a value then. -/
theorem Formula.marked_substituteAll_illKinded :
    let x : Token := .detached .name "x"
    let plus : Token := .detached (.operator .add) "+"
    let f : Formula := ⟨.ofOperands (.detached .number "7") (.ofToken x) (.ofToken plus), ∅⟩
    let stages : List Bindings := [{("y", 2)}, {("x", 1)}]
    f.root.Built ∧ f.root.isClosed = false ∧ (f.substituteAll stages).root.Marked ∧
      ∃ s : Expr, s.Within (f.substituteAll stages).root ∧ s.evaluate = .ok 1 ∧
        s.isClosed = true := by
  intro x plus f stages
  have hbuilt : f.root.Built := .ofOperands _ (.ofToken x) (.ofToken plus)
  obtain ⟨hmarked, hclosed⟩ := Formula.marked_substituteAll hbuilt stages
  have hleft : (Expr.ofToken x).substitute {("y", 2)} = .ofToken x :=
    Expr.substitute_leaf_unbound fun _ => by simp [x, Token.detached]
  have hright : ((Expr.ofToken x).substitute {("x", 1)}) =
      .leaf ⟨.number, Numeral.write 1, .nowhere⟩ true :=
    Expr.substitute_leaf_bound rfl (by simp [x, Token.detached])
  have hs : (Expr.leaf ⟨.number, Numeral.write 1, .nowhere⟩ true).Within
      (f.substituteAll stages).root := by
    refine .left ?_
    show Expr.Within _ (((Expr.ofToken x).substitute {("y", 2)}).substitute {("x", 1)})
    rw [hleft, hright]
    exact .self
  have hvalue := Expr.value_write 1 .nowhere
  exact ⟨hbuilt, rfl, hmarked, _, hs, hvalue, hclosed _ 1 hs hvalue⟩

end Calculator
