import Calculator.Proofs.Formula.Agreement
import Calculator.Proofs.Formula.Isolation
import Calculator.Proofs.Formula.Leaves
import Mathlib.Data.List.Forall2

/-!
# Splicing in a group

A list of tokens that makes a formula, put in brackets, may stand wherever an
operand may stand, and the formula's root then stands where the operand's leaf
would.

`Expr.graft` puts an expression in the place of a leaf, which is known by its
number among the leaves, since its token may occur elsewhere as well.
`takeAll_group` says that a group only pushes its root.  From there on the run
with the group and the run with the operand go side by side: their operands
differ in one leaf (`Grafted`), and an assembly never looks into an operand.

`ofTokens_splice` is what this comes to.  Nothing is assumed of the tokens before
and after the operand.
-/

namespace Calculator

open Assembly

/-! ## Grafting -/

namespace Expr

/-- The expression with `s` in the place of leaf number `n`, counted from the
left.  The marks of the joins above that leaf are set anew. -/
def graft : Expr → Nat → Expr → Expr
  | leaf token closed, n, s => if n = 0 then s else leaf token closed
  | join token left right _, n, s =>
    if n < left.leaves.length then ofOperands token (left.graft n s) right
    else ofOperands token left (right.graft (n - left.leaves.length) s)

theorem graft_ofOperands_left {left : Expr} {n : Nat} (h : n < left.leaves.length) (t : Token)
    (right s : Expr) :
    (ofOperands t left right).graft n s = ofOperands t (left.graft n s) right := by
  rw [ofOperands, graft, if_pos h]

theorem graft_ofOperands_right (t : Token) (left right s : Expr) (n : Nat) :
    (ofOperands t left right).graft (left.leaves.length + n) s =
      ofOperands t left (right.graft n s) := by
  rw [ofOperands, graft, if_neg (by omega), Nat.add_sub_cancel_left]

end Expr

/-- The second operands are the first with `s` in the place of leaf number `k`,
counted from the lowest operand. -/
inductive Grafted (s : Expr) : Nat → List Expr → List Expr → Prop
  | here {e : Expr} {n : Nat} (hn : n < e.leaves.length) (rest : List Expr) :
      Grafted s ((rest.reverse.flatMap Expr.leaves).length + n) (e :: rest) (e.graft n s :: rest)
  | above {k : Nat} {xs ys : List Expr} (e : Expr) (h : Grafted s k xs ys) :
      Grafted s k (e :: xs) (e :: ys)

namespace Grafted

variable {s lower lower' upper upper' : Expr} {k : Nat} {xs ys : List Expr}

theorem length_eq (h : Grafted s k xs ys) : xs.length = ys.length := by
  induction h with
  | here => rfl
  | above e _ ih => rw [List.length_cons, List.length_cons, ih]

/-- A join of the grafted operand is grafted; the leaves of a left operand come
before those of the right one. -/
theorem join (t : Token) (h : Grafted s k (upper :: lower :: xs) (upper' :: lower' :: ys)) :
    Grafted s k (.ofOperands t lower upper :: xs) (.ofOperands t lower' upper' :: ys) := by
  cases h with
  | @here _ n hn =>
    have hn' : lower.leaves.length + n < (Expr.ofOperands t lower upper).leaves.length := by
      rw [Expr.leaves_ofOperands, List.length_append]
      exact Nat.add_lt_add_left hn _
    have hjoin := Grafted.here (s := s) hn' xs
    rw [Expr.graft_ofOperands_right, ← Nat.add_assoc] at hjoin
    simpa using hjoin
  | above _ h =>
    cases h with
    | @here _ n hn =>
      have hn' : n < (Expr.ofOperands t lower upper).leaves.length := by
        rw [Expr.leaves_ofOperands, List.length_append]
        exact Nat.lt_add_right _ hn
      have hjoin := Grafted.here (s := s) hn' xs
      rw [Expr.graft_ofOperands_left hn] at hjoin
      exact hjoin
    | above _ h => exact h.above _

/-- Of the same tokens, an assembly keeps grafted operands grafted. -/
theorem correspondence (s : Expr) (k : Nat) : Correspondence Eq (Grafted s k) where
  isOperand := by
    rintro t _ rfl
    rfl
  kind := by
    rintro t _ rfl _
    rfl
  length := length_eq
  push := by
    rintro t _ xs ys rfl _ h
    exact h.above _
  join := by
    rintro t _ lower lower' upper upper' xs ys rfl h
    exact h.join t

/-- Of a single operand, it is a leaf of that operand that is replaced. -/
theorem of_singleton {e e' : Expr} (h : Grafted s k [e] [e']) : e' = e.graft k s := by
  cases h with
  | @here _ n hn =>
    show e.graft n s = e.graft (0 + n) s
    rw [Nat.zero_add]
  | above _ h => cases h

end Grafted

/-! ## Groups -/

section

variable {pre ts post : List Token} {a : Assembly} {o c x : Token} {g : Formula}

/-- A group that makes a formula alone leaves an assembly as it was, with the
formula's root pushed. -/
theorem takeAll_group (ho : o.kind = .opening) (hc : c.kind = .closing)
    (hg : Formula.ofTokens ts = .ok g) :
    ∃ d, a.takeAll (o :: (ts ++ [c])) = .ok d ∧ d.waiting = a.waiting ∧
      d.operands.items = g.root :: a.operands.items ∧ d.badGroup = a.badGroup := by
  obtain ⟨a₀, hopen, hwaiting, hoperands, hbad₀⟩ : ∃ a₀, Step a o a₀ ∧
      a₀.waiting = .group o a.operands.height :: a.waiting ∧ a₀.operands = a.operands ∧
      a₀.badGroup = a.badGroup := ⟨_, .opening ho, rfl, rfl, by simp [note, cover]⟩
  have hbase : Steady 0 a₀.waiting := hwaiting ▸ Steady.group 0 o _ a.waiting
  obtain ⟨a₁, xs, hts, hr, hxs, hbad₁⟩ := takeAll_over hbase hg
  rw [hwaiting] at hr
  rw [hoperands] at hxs
  have hrun := takeAll_cons_eq_ok.mpr
    ⟨a₀, hopen, takeAll_concat_eq_ok.mpr ⟨a₁, hts, Step.closing hc hr⟩⟩
  refine ⟨_, hrun, rfl, hxs, ?_⟩
  have hheight : xs.height = a.operands.height + 1 := by
    rw [xs.height_eq, a.operands.height_eq, hxs, List.length_cons]
  show (a₁.badGroup <|> groupError? o c a.operands.height xs.height) = a.badGroup
  rw [hheight, groupError?_succ, hbad₁, hbad₀]
  cases a.badGroup <;> rfl

/-- An operand, and a group in its place, lead to assemblies that correspond. -/
theorem sideBySide_splice (ho : o.kind = .opening) (hc : c.kind = .closing)
    (hx : x.kind.isOperand = true) (hg : Formula.ofTokens ts = .ok g)
    (hpre : takeAll {} pre = .ok a) :
    ∃ b d, takeAll {} (pre ++ [x]) = .ok b ∧ takeAll {} (pre ++ o :: (ts ++ [c])) = .ok d ∧
      SideBySide Eq (Grafted g.root (pre.countP (·.kind.isOperand))) b d := by
  obtain ⟨d, hd, hwaiting, hoperands, hbad⟩ := takeAll_group (a := a) ho hc hg
  have hleaf : Step a x { a.note x with operands := a.operands.push (.ofToken x) } := .operand hx
  refine ⟨_, d, takeAll_concat_eq_ok.mpr ⟨a, hpre, hleaf⟩,
    takeAll_append_eq_ok.mpr ⟨a, hpre, hd⟩, ?_, ?_, ?_⟩
  · rw [hwaiting]
    exact List.forall₂_same.mpr fun w _ => .refl w
  · rw [hoperands, List.countP_eq_length_filter, ← (gathered_of_takeAll hpre).leaves]
    exact @Grafted.here g.root (.ofToken x) 0 Nat.one_pos a.operands.items
  · rw [hbad]
    rfl

/-- The leaf of an operand has as many leaves before it as there are operands
before the operand. -/
theorem leaf_of_ofTokens {f : Formula} (hx : x.kind.isOperand = true)
    (h : Formula.ofTokens (pre ++ x :: post) = .ok f) :
    f.root.leaves[pre.countP (·.kind.isOperand)]? = some x := by
  have hfilter : (x :: post).filter (·.kind.isOperand) = x :: post.filter (·.kind.isOperand) :=
    List.filter_cons_of_pos hx
  rw [leaves_of_ofTokens h, List.filter_append, hfilter, List.countP_eq_length_filter,
    List.getElem?_append_right (Nat.le_refl _), Nat.sub_self]
  rfl

/-- Tokens that make a formula, put in brackets, may take the place of an
operand among any tokens: either both lists make a formula, and the expressions
differ in that the root of the one stands where the operand's leaf was, or both
fail with the same fault. -/
theorem ofTokens_splice (ho : o.kind = .opening) (hc : c.kind = .closing)
    (hx : x.kind.isOperand = true) (hg : Formula.ofTokens ts = .ok g) (pre post : List Token) :
    Agree
      (fun f f' => f.root.leaves[pre.countP (·.kind.isOperand)]? = some x ∧
        f'.root = f.root.graft (pre.countP (·.kind.isOperand)) g.root)
      (Formula.ofTokens (pre ++ x :: post)) (Formula.ofTokens (pre ++ o :: (ts ++ c :: post))) := by
  have hsplit : pre ++ x :: post = pre ++ [x] ++ post := by simp
  have hsplit' : pre ++ o :: (ts ++ c :: post) = pre ++ o :: (ts ++ [c]) ++ post := by simp
  cases hpre : takeAll {} pre with
  | error e =>
    rw [ofTokens_append_of_error hpre, ofTokens_append_of_error hpre]
    exact .error rfl
  | ok a =>
    obtain ⟨b, d, hb, hd, hside⟩ := sideBySide_splice ho hc hx hg hpre
    have hC := Grafted.correspondence g.root (pre.countP (·.kind.isOperand))
    have hpost : List.Forall₂ Eq post post := List.forall₂_same.mpr fun _ _ => rfl
    have hagree := (hC.agree_takeAll hpost hside).bind fun _ _ h => hC.agree_finish h
    rw [← ofTokens_append hb, ← ofTokens_append hd, ← hsplit, ← hsplit'] at hagree
    exact hagree.mono fun f f' hf h => ⟨leaf_of_ofTokens hx hf, h.of_singleton⟩

/-- The tokens `2 5 +`, put in brackets, take the place of `x` in `3 * x - x`. -/
theorem ofTokens_splice_postfix :
    let o : Token := ⟨.opening, "(", ⟨4, 5⟩⟩
    let c : Token := ⟨.closing, ")", ⟨10, 11⟩⟩
    let x : Token := .detached .name "x"
    let ts : List Token := [⟨.number, "2", ⟨5, 6⟩⟩, ⟨.number, "5", ⟨7, 8⟩⟩,
      ⟨.operator .add, "+", ⟨9, 10⟩⟩]
    let pre : List Token := [⟨.number, "3", ⟨0, 1⟩⟩, ⟨.operator .mul, "*", ⟨2, 3⟩⟩]
    let post : List Token := [⟨.operator .sub, "-", ⟨12, 13⟩⟩, x]
    ∃ f f' g, Formula.ofTokens ts = .ok g ∧ Formula.ofTokens (pre ++ x :: post) = .ok f ∧
      Formula.ofTokens (pre ++ o :: (ts ++ c :: post)) = .ok f' ∧
      f.root.leaves[1]? = some x ∧ f'.root = f.root.graft 1 g.root := by
  intro o c x ts pre post
  have hg : Formula.ofTokens ts = .ok _ := rfl
  have hf : Formula.ofTokens (pre ++ x :: post) = .ok _ := rfl
  have hf' : Formula.ofTokens (pre ++ o :: (ts ++ c :: post)) = .ok _ := rfl
  have hagree := ofTokens_splice (o := o) (c := c) (x := x) rfl rfl rfl hg pre post
  rw [hf, hf'] at hagree
  cases hagree with
  | ok h => exact ⟨_, _, _, hg, hf, hf', h⟩

end

end Calculator
