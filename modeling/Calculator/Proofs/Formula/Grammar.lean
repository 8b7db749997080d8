import Calculator.Proofs.Expr.Nodes
import Calculator.Proofs.Formula.Brackets
import Calculator.Proofs.Formula.Steps

/-!
# The grammar of formulas

`Phrase` is the grammar that arithmetic is written in: sums of products of
factors, and a factor is an operand or a sum in brackets.  Each phrase comes
with its expression.

The assembly does not look at this grammar.  It is followed through a phrase
by `takeAll_phrase`: whatever stood on the two stacks before, the phrase leaves
the stacks as if its expression had been pushed, except that the last joins of
the phrase may still be waiting.  `ofTokens_phrase` is what that comes to for
all the tokens of a formula.
-/

namespace Calculator

/-- The parts of a formula. -/
inductive PhraseLevel where
  | sum
  | product
  | factor

/-- The phrases of each level, with the expressions they stand for. -/
inductive Phrase : PhraseLevel → List Token → Expr → Prop
  | operand {t : Token} (hk : t.kind.isOperand = true) : Phrase .factor [t] (.ofToken t)
  | enclosed {o c : Token} {ts : List Token} {e : Expr} (ho : o.kind = .opening)
      (hc : c.kind = .closing) (h : Phrase .sum ts e) : Phrase .factor (o :: (ts ++ [c])) e
  | ofFactor {ts : List Token} {e : Expr} (h : Phrase .factor ts e) : Phrase .product ts e
  | ofProduct {ts : List Token} {e : Expr} (h : Phrase .product ts e) : Phrase .sum ts e
  | product {ts us : List Token} {t : Token} {left right : Expr} {op : Operation}
      (hop : op = .mul ∨ op = .div) (hk : t.kind = .operator op)
      (hleft : Phrase .product ts left) (hright : Phrase .factor us right) :
      Phrase .product (ts ++ t :: us) (.ofOperands t left right)
  | sum {ts us : List Token} {t : Token} {left right : Expr} {op : Operation}
      (hop : op = .add ∨ op = .sub) (hk : t.kind = .operator op)
      (hleft : Phrase .sum ts left) (hright : Phrase .product us right) :
      Phrase .sum (ts ++ t :: us) (.ofOperands t left right)

namespace Phrase

variable {level : PhraseLevel} {ts : List Token} {e : Expr}

theorem marked (h : Phrase level ts e) : e.Marked := by
  induction h with
  | operand => exact .ofToken _
  | enclosed _ _ _ ih => exact ih
  | ofFactor _ ih => exact ih
  | ofProduct _ ih => exact ih
  | product _ _ _ _ ihl ihr => exact .ofOperands _ ihl ihr
  | sum _ _ _ _ ihl ihr => exact .ofOperands _ ihl ihr

/-- The expression of a phrase holds its tokens in their order, all but the
brackets. -/
theorem tokens_eq (h : Phrase level ts e) : e.tokens = unbracketed ts := by
  induction h with
  | operand hk =>
    rw [Expr.tokens_ofToken, unbracketed_plain (isBracket_of_operand hk), unbracketed_nil]
  | enclosed ho hc _ ih =>
    rw [unbracketed_bracket (isBracket_of_opening ho), unbracketed_append,
      unbracketed_bracket (isBracket_of_closing hc), unbracketed_nil, List.append_nil, ih]
  | ofFactor _ ih => exact ih
  | ofProduct _ ih => exact ih
  | product _ hk _ _ ihl ihr | sum _ hk _ _ ihl ihr =>
    rw [Expr.tokens_ofOperands, unbracketed_append, unbracketed_plain (isBracket_of_operator hk),
      ihl, ihr]

end Phrase

/-- The precedence from which on operators join inside a phrase of a level. -/
def PhraseLevel.threshold : PhraseLevel → Nat
  | sum => 1
  | product => 2
  | factor => 3

namespace Assembly

theorem join_push_push (token : Token) (xs : Stack Expr) (lower upper : Expr) :
    join token ((xs.push lower).push upper) = .ok (xs.push (.ofOperands token lower upper)) := by
  have hitems : ((xs.push lower).push upper).items = upper :: lower :: xs.items := rfl
  obtain ⟨ys, hj, hys⟩ := exists_join hitems
  rw [hj]
  exact congrArg _ (Stack.ext hys)

/-- An operator that waits over two operands joins them in a reduction that
reaches it. -/
theorem reduce_operator_push {p : Nat} {op : Operation} (hp : p ≤ op.precedence) (t : Token)
    (w : List Waiting) (xs : Stack Expr) (left right : Expr) :
    reduce p (.operator op t :: w) ((xs.push left).push right) =
      reduce p w (xs.push (.ofOperands t left right)) :=
  reduce_operator_of_le hp (join_push_push t xs left right)

/-- `b` is `a` with the expression `e` pushed, up to joins that a reduction to
any precedence below `q` still makes. -/
structure Reaches (q : Nat) (a : Assembly) (e : Expr) (b : Assembly) : Prop where
  reduce_eq : ∀ p, p ≤ q → reduce p b.waiting b.operands = reduce p a.waiting (a.operands.push e)
  badGroup_eq : b.badGroup = a.badGroup

/-- An operator between two phrases finds the expression of the first on top of
the operands, and waits for that of the second. -/
theorem Reaches.operation {a b : Assembly} {ts us : List Token} {t : Token} {op : Operation}
    {left right : Expr} {q : Nat} (hk : t.kind = .operator op)
    (hw : Steady op.precedence a.waiting) (hts : a.takeAll ts = .ok b)
    (hb : Reaches op.precedence a left b) (hq : op.precedence < q)
    (hright : ∀ c, Steady q c.waiting → ∃ d, c.takeAll us = .ok d ∧ Reaches q c right d) :
    ∃ d, a.takeAll (ts ++ t :: us) = .ok d ∧
      Reaches op.precedence a (.ofOperands t left right) d := by
  have hr : reduce op.precedence b.waiting b.operands = .ok (a.waiting, a.operands.push left) := by
    rw [hb.reduce_eq _ (Nat.le_refl _), reduce_of_steady hw]
  have hstep := Step.operator (t := t) hk hr
  obtain ⟨d, hus, hd⟩ := hright
    { b.note t with waiting := .operator op t :: a.waiting, operands := a.operands.push left }
    (.operator hq t a.waiting)
  refine ⟨d, takeAll_append_eq_ok.mpr ⟨b, hts, takeAll_cons_eq_ok.mpr ⟨_, hstep, hus⟩⟩, ?_⟩
  refine ⟨fun p hp => ?_, hd.badGroup_eq.trans hb.badGroup_eq⟩
  rw [hd.reduce_eq p (by omega), reduce_operator_push hp]

/-- A closing bracket after a phrase leaves the phrase's expression on top of
the operands that were there at the opening bracket. -/
theorem Reaches.step_closing {a b : Assembly} {e : Expr} {o c : Token} {q : Nat}
    (h : Reaches q { a.note o with waiting := .group o a.operands.height :: a.waiting } e b)
    (hc : c.kind = .closing) :
    ∃ d, Step b c d ∧ d.waiting = a.waiting ∧ d.operands = a.operands.push e ∧
      d.badGroup = a.badGroup := by
  have hr : reduce 0 b.waiting b.operands =
      .ok (.group o a.operands.height :: a.waiting, a.operands.push e) :=
    h.reduce_eq 0 (Nat.zero_le q)
  refine ⟨_, .closing hc hr, rfl, rfl, ?_⟩
  have hnone : groupError? o c a.operands.height (a.operands.push e).height = none :=
    groupError?_succ o c a.operands.height
  show (b.badGroup <|> groupError? o c a.operands.height (a.operands.push e).height) = a.badGroup
  rw [hnone, h.badGroup_eq]
  simp [note, cover]

/-- A phrase leaves an assembly as if its expression had been pushed. -/
theorem takeAll_phrase {level : PhraseLevel} {ts : List Token} {e : Expr} (h : Phrase level ts e)
    (a : Assembly) (hw : Steady level.threshold a.waiting) :
    ∃ b, a.takeAll ts = .ok b ∧ Reaches level.threshold a e b := by
  -- The stacks below the phrase are arbitrary: the right operand of an
  -- operator is a phrase above that operator and the left operand's value.
  induction h generalizing a with
  | @operand t hk => exact ⟨_, takeAll_cons_eq_ok.mpr ⟨_, .operand hk, rfl⟩, fun _ _ => rfl, rfl⟩
  | @enclosed o c ts e ho hc _ ih =>
    obtain ⟨b, hts, hb⟩ := ih { a.note o with waiting := .group o a.operands.height :: a.waiting }
      (.group _ _ _ _)
    obtain ⟨d, hd, hwaiting, hoperands, hbad⟩ := hb.step_closing hc
    refine ⟨d, ?_, fun p _ => by rw [hwaiting, hoperands], hbad⟩
    exact takeAll_cons_eq_ok.mpr ⟨_, .opening ho, takeAll_concat_eq_ok.mpr ⟨b, hts, hd⟩⟩
  | ofFactor _ ih =>
    obtain ⟨b, hts, hb⟩ := ih a (hw.mono (Nat.le_succ 2))
    exact ⟨b, hts, fun p hp => hb.reduce_eq p (Nat.le_succ_of_le hp), hb.badGroup_eq⟩
  | ofProduct _ ih =>
    obtain ⟨b, hts, hb⟩ := ih a (hw.mono (Nat.le_succ 1))
    exact ⟨b, hts, fun p hp => hb.reduce_eq p (Nat.le_succ_of_le hp), hb.badGroup_eq⟩
  | @product _ _ _ _ _ op hop hk _ _ ihl ihr =>
    have hprec : PhraseLevel.product.threshold = op.precedence := by
      rcases hop with rfl | rfl <;> rfl
    obtain ⟨b, hts, hb⟩ := ihl a hw
    rw [hprec] at hw hb ⊢
    exact hb.operation hk hw hts (by rw [← hprec]; decide) ihr
  | @sum _ _ _ _ _ op hop hk _ _ ihl ihr =>
    have hprec : PhraseLevel.sum.threshold = op.precedence := by
      rcases hop with rfl | rfl <;> rfl
    obtain ⟨b, hts, hb⟩ := ihl a hw
    rw [hprec] at hw hb ⊢
    exact hb.operation hk hw hts (by rw [← hprec]; decide) ihr

end Assembly

open Assembly

theorem Phrase.exists_formula {ts : List Token} {e : Expr} (h : Phrase .sum ts e) :
    ∃ f, Formula.ofTokens ts = .ok f ∧ f.root = e := by
  obtain ⟨b, hts, hb⟩ := takeAll_phrase h {} nofun
  have hr : reduce 0 b.waiting b.operands = .ok ([], Stack.empty.push e) :=
    hb.reduce_eq 0 (Nat.zero_le _)
  have hfinish : b.finish = .ok ⟨e, b.names⟩ :=
    finish_eq_ok_iff.mpr ⟨_, e, hr, rfl, hb.badGroup_eq, rfl⟩
  exact ⟨_, ofTokens_eq_ok_iff.mpr ⟨b, hts, hfinish⟩, rfl⟩

/-- The grammar is unambiguous: the assembly makes one expression of the
tokens, and every reading of them has that one. -/
theorem Phrase.unique {ts : List Token} {e e' : Expr} (h : Phrase .sum ts e)
    (h' : Phrase .sum ts e') : e = e' := by
  obtain ⟨f, hf, rfl⟩ := h.exists_formula
  obtain ⟨f', hf', rfl⟩ := h'.exists_formula
  rw [hf] at hf'
  cases hf'
  rfl

/-- The tokens of a sum make the formula that has the sum's expression for its
root.  The expression holds the tokens unchanged and in order, all but the
brackets; its marks say where names are left, and the names of the formula are
those of its tokens. -/
theorem ofTokens_phrase {ts : List Token} {e : Expr} (h : Phrase .sum ts e) :
    ∃ f, Formula.ofTokens ts = .ok f ∧ f.root = e ∧
      f.root.tokens = unbracketed ts ∧ f.root.Marked ∧
      ∀ name, name ∈ f.names ↔ ∃ t ∈ ts, t.kind = .name ∧ t.text = name := by
  obtain ⟨f, hf, rfl⟩ := h.exists_formula
  exact ⟨f, hf, rfl, h.tokens_eq, h.marked, fun name => mem_names_of_ofTokens hf⟩

/-- `(1 + 2) * x` is a product of a sum in brackets and a name. -/
theorem ofTokens_phrase_product :
    let one : Token := ⟨.number, "1", ⟨1, 2⟩⟩
    let plus : Token := ⟨.operator .add, "+", ⟨3, 4⟩⟩
    let two : Token := ⟨.number, "2", ⟨5, 6⟩⟩
    let times : Token := ⟨.operator .mul, "*", ⟨8, 9⟩⟩
    let x : Token := ⟨.name, "x", ⟨10, 11⟩⟩
    let ts := [⟨.opening, "(", ⟨0, 1⟩⟩, one, plus, two, ⟨.closing, ")", ⟨6, 7⟩⟩, times, x]
    let e := Expr.ofOperands times (.ofOperands plus (.ofToken one) (.ofToken two)) (.ofToken x)
    Phrase .sum ts e ∧ ∃ f, Formula.ofTokens ts = .ok f ∧ f.root = e ∧
      f.root.tokens = [one, plus, two, times, x] ∧ f.root.Marked ∧
      ∀ name, name ∈ f.names ↔ ∃ t ∈ ts, t.kind = .name ∧ t.text = name := by
  intro one plus two times x ts e
  have hsum : Phrase .sum [one, plus, two] (.ofOperands plus (.ofToken one) (.ofToken two)) :=
    .sum (.inl rfl) rfl (.ofProduct (.ofFactor (.operand rfl))) (.ofFactor (.operand rfl))
  have h : Phrase .sum ts e :=
    .ofProduct (.product (.inl rfl) rfl (.ofFactor (.enclosed rfl rfl hsum)) (.operand rfl))
  exact ⟨h, ofTokens_phrase h⟩

end Calculator
