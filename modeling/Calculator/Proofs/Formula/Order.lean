import Calculator.Formula.Source
import Calculator.Proofs.Expr.Nodes
import Calculator.Proofs.Formula.Outcome

/-!
# The order of the tokens

Where the tokens of a formula stand in its expression.

The assembly does not ask whether an operand or an operator is next, so an
operator may come after both of its operands, or before them: `1 2 +` is
assembled as `1+2`.  A list of tokens `Alternates` when operands and operators
take turns in it.

`InOrder` is the invariant of a run through such a list: as long as an operand
is next, each operand below belongs in front of an operator that waits for it
(`Awaits`), and otherwise there is one more operand after all of those
(`Ends`).  `tokens_eq_iff_alternates` says that taking turns is also necessary
for an expression to hold its tokens in their order, and
`order_of_ofSource` says the same of sources and of the text of the formula.
-/

namespace Calculator

open Assembly

/-! ## Taking turns -/

/-- Operands and operators take turns, an operand first, and brackets do not
count. -/
def Alternates (ts : List Token) : Prop :=
  ∀ us, us <+: ts → operandSurplus us = 0 ∨ operandSurplus us = 1

instance (ts : List Token) : Decidable (Alternates ts) :=
  inferInstanceAs (Decidable (∀ us, us <+: ts → operandSurplus us = 0 ∨ operandSurplus us = 1))

section

variable {ts us : List Token}

theorem Alternates.nil : Alternates [] := forall_prefix_nil.mpr (.inl rfl)

theorem Alternates.of_append (h : Alternates (ts ++ us)) : Alternates ts :=
  fun vs hvs => h vs (hvs.trans (List.prefix_append ts us))

theorem Alternates.surplus (h : Alternates ts) : operandSurplus ts = 0 ∨ operandSurplus ts = 1 :=
  h ts (List.prefix_refl ts)

theorem Alternates.concat {t : Token} (h : Alternates ts)
    (ht : operandSurplus (ts ++ [t]) = 0 ∨ operandSurplus (ts ++ [t]) = 1) :
    Alternates (ts ++ [t]) :=
  forall_prefix_concat.mpr ⟨h, ht⟩

theorem Alternates.append (hts : Alternates ts) (hzero : operandSurplus ts = 0)
    (hus : Alternates us) : Alternates (ts ++ us) := by
  intro vs hvs
  rcases List.prefix_or_prefix_of_prefix hvs (List.prefix_append ts us) with hvs' | ⟨ws, rfl⟩
  · exact hts vs hvs'
  · rw [operandSurplus_append, hzero, Int.zero_add]
    exact hus ws ((List.prefix_append_right_inj ts).mp hvs)

/-- Brackets do not count. -/
theorem Alternates.of_unbracketed (h : Alternates (unbracketed ts)) : Alternates ts := by
  intro us hus
  rw [← operandSurplus_unbracketed]
  exact h (unbracketed us) (hus.filter _)

end

/-! ## Expressions alternate -/

/-- The leaves of an expression are operands, and its joins operators. -/
def Expr.WellKinded : Expr → Prop
  | .leaf token _ => token.kind.isOperand = true
  | .join token left right _ =>
    (∃ op, token.kind = .operator op) ∧ left.WellKinded ∧ right.WellKinded

theorem Expr.WellKinded.alternates {e : Expr} (h : e.WellKinded) :
    Alternates e.tokens ∧ operandSurplus e.tokens = 1 := by
  induction e with
  | leaf token closed =>
    have hsurplus : operandSurplus [token] = 1 := operandSurplus_operand h
    exact ⟨Alternates.nil.concat (.inr hsurplus), hsurplus⟩
  | join token left right closed ihl ihr =>
    obtain ⟨⟨op, hop⟩, hl, hr⟩ := h
    obtain ⟨hleft, hleft'⟩ := ihl hl
    obtain ⟨hright, hright'⟩ := ihr hr
    have hzero : operandSurplus (left.tokens ++ [token]) = 0 := by
      rw [operandSurplus_append, hleft', operandSurplus_operator hop]
      rfl
    have hsplit : (join token left right closed).tokens =
        (left.tokens ++ [token]) ++ right.tokens := by
      rw [List.append_assoc]
      rfl
    rw [hsplit]
    refine ⟨(hleft.concat (.inl hzero)).append hzero hright, ?_⟩
    rw [operandSurplus_append, hzero, hright']
    rfl

/-- The kinds on the two stacks are right. -/
structure KindsFit (w : List Waiting) (es : List Expr) : Prop where
  waiting : ∀ op t, .operator op t ∈ w → t.kind = .operator op
  operands : ∀ e ∈ es, e.WellKinded

namespace KindsFit

variable {w : List Waiting} {xs ys : Stack Expr} {a b : Assembly} {t : Token}

theorem of_join {op : Operation} (h : KindsFit (.operator op t :: w) xs.items)
    (hj : join t xs = .ok ys) : KindsFit w ys.items := by
  obtain ⟨upper, lower, rest, hxs, hys⟩ := items_of_join hj
  have hoperands := h.operands
  rw [hxs] at hoperands
  refine ⟨fun op' t' ht' => h.waiting op' t' (List.mem_cons_of_mem _ ht'), ?_⟩
  rw [hys]
  intro e he
  rcases List.mem_cons.mp he with rfl | he
  · exact ⟨⟨op, h.waiting op t List.mem_cons_self⟩,
      hoperands lower (List.mem_cons_of_mem _ List.mem_cons_self),
      hoperands upper List.mem_cons_self⟩
  · exact hoperands e (List.mem_cons_of_mem _ (List.mem_cons_of_mem _ he))

theorem of_reduce {p : Nat} {w' : List Waiting} (h : KindsFit w xs.items)
    (hr : reduce p w xs = .ok (w', ys)) : KindsFit w' ys.items :=
  reduce_induction (P := fun w xs => KindsFit w xs.items) of_join hr h

theorem of_step (h : KindsFit a.waiting a.operands.items) (hstep : Step a t b) :
    KindsFit b.waiting b.operands.items := by
  cases hstep with
  | operand hk =>
    refine ⟨h.waiting, ?_⟩
    intro e he
    rcases List.mem_cons.mp he with rfl | he
    · exact hk
    · exact h.operands e he
  | operator hk hr =>
    obtain ⟨hwaiting, hoperands⟩ := h.of_reduce hr
    refine ⟨?_, hoperands⟩
    intro op' t' ht'
    rcases List.mem_cons.mp ht' with heq | ht'
    · cases heq
      exact hk
    · exact hwaiting op' t' ht'
  | opening hk =>
    refine ⟨?_, h.operands⟩
    intro op' t' ht'
    rcases List.mem_cons.mp ht' with heq | ht'
    · cases heq
    · exact h.waiting op' t' ht'
  | closing hk hr =>
    obtain ⟨hwaiting, hoperands⟩ := h.of_reduce hr
    exact ⟨fun op' t' ht' => hwaiting op' t' (List.mem_cons_of_mem _ ht'), hoperands⟩

end KindsFit

theorem wellKinded_of_ofTokens {ts : List Token} {f : Formula} (h : Formula.ofTokens ts = .ok f) :
    f.root.WellKinded := by
  obtain ⟨a, hts, hfinish⟩ := ofTokens_eq_ok_iff.mp h
  obtain ⟨xs, root, hr, hroot, -, rfl⟩ := finish_eq_ok_iff.mp hfinish
  have hfit : KindsFit a.waiting a.operands.items :=
    takeAll_induction (P := fun _ a => KindsFit a.waiting a.operands.items)
      (fun h hstep => h.of_step hstep) hts ⟨nofun, nofun⟩
  have hoperands := (hfit.of_reduce hr).operands
  rw [hroot] at hoperands
  exact hoperands root List.mem_cons_self

/-! ## Runs that alternate -/

/-- Every operand has an operator that waits for the next one, and in this
order the two stacks hold the tokens `us`. -/
inductive Awaits : List Waiting → List Expr → List Token → Prop
  | bottom : Awaits [] [] []
  | operator {op : Operation} {t : Token} {w : List Waiting} {e : Expr} {es : List Expr}
      {us : List Token} (h : Awaits w es us) :
      Awaits (.operator op t :: w) (e :: es) (us ++ e.tokens ++ [t])
  | group {o : Token} {height : Nat} {w : List Waiting} {es : List Expr} {us : List Token}
      (h : Awaits w es us) : Awaits (.group o height :: w) es us

/-- The topmost operand is the last of the tokens `us`, and the others have
their operators. -/
def Ends (w : List Waiting) (es : List Expr) (us : List Token) : Prop :=
  ∃ e rest vs, es = e :: rest ∧ Awaits w rest vs ∧ us = vs ++ e.tokens

section

variable {w w' : List Waiting} {xs ys : Stack Expr} {us ts : List Token} {t : Token}
  {a b : Assembly}

theorem Ends.of_join {op : Operation} (h : Ends (.operator op t :: w) xs.items us)
    (hj : join t xs = .ok ys) : Ends w ys.items us := by
  obtain ⟨upper, lower, rest, hxs, hys⟩ := items_of_join hj
  obtain ⟨e, es, vs, hitems, hawaits, hus⟩ := h
  rw [hxs] at hitems
  obtain ⟨rfl, rfl⟩ := List.cons.inj hitems
  cases hawaits with
  | @operator _ _ _ _ _ vs hrest =>
    refine ⟨_, rest, vs, hys, hrest, ?_⟩
    rw [hus, Expr.tokens_ofOperands]
    simp only [List.append_assoc, List.singleton_append]

theorem Ends.of_reduce {p : Nat} (h : Ends w xs.items us) (hr : reduce p w xs = .ok (w', ys)) :
    Ends w' ys.items us :=
  reduce_induction (P := fun w xs => Ends w xs.items us) Ends.of_join hr h

/-- The stacks hold the tokens `ts` in their order. -/
structure InOrder (ts : List Token) (a : Assembly) : Prop where
  awaits : operandSurplus ts = 0 → Awaits a.waiting a.operands.items (unbracketed ts)
  ends : operandSurplus ts = 1 → Ends a.waiting a.operands.items (unbracketed ts)

theorem InOrder.of_awaits (hts : operandSurplus ts = 0)
    (h : Awaits a.waiting a.operands.items (unbracketed ts)) : InOrder ts a :=
  ⟨fun _ => h, fun hone => absurd hone (by omega)⟩

theorem InOrder.of_ends (hts : operandSurplus ts = 1)
    (h : Ends a.waiting a.operands.items (unbracketed ts)) : InOrder ts a :=
  ⟨fun hzero => absurd hzero (by omega), fun _ => h⟩

/-- A token in its turn keeps the order. -/
theorem InOrder.of_step (h : InOrder ts a) (hstep : Step a t b) (halt : Alternates (ts ++ [t]))
    (hopen : t.kind = .opening → operandSurplus ts = 0)
    (hclose : t.kind = .closing → operandSurplus ts = 1) : InOrder (ts ++ [t]) b := by
  have hturn := halt.of_append.surplus
  have hturn' := halt.surplus
  have hsurplus := operandSurplus_append ts [t]
  cases hstep with
  | operand hk =>
    rw [operandSurplus_operand hk] at hsurplus
    apply InOrder.of_ends
    · omega
    · rw [unbracketed_append, unbracketed_plain (isBracket_of_operand hk), unbracketed_nil]
      exact ⟨.ofToken t, _, _, rfl, h.awaits (by omega), rfl⟩
  | operator hk hr =>
    rw [operandSurplus_operator hk] at hsurplus
    obtain ⟨e, es, vs, hitems, hawaits, hus⟩ := (h.ends (by omega)).of_reduce hr
    apply InOrder.of_awaits
    · omega
    · rw [unbracketed_append, unbracketed_plain (isBracket_of_operator hk), unbracketed_nil, hus]
      show Awaits _ (Stack.items _) _
      rw [hitems]
      exact hawaits.operator
  | opening hk =>
    rw [operandSurplus_bracket (isBracket_of_opening hk), hopen hk] at hsurplus
    apply InOrder.of_awaits
    · omega
    · rw [unbracketed_append, unbracketed_bracket (isBracket_of_opening hk), unbracketed_nil,
        List.append_nil]
      exact (h.awaits (hopen hk)).group
  | closing hk hr =>
    rw [operandSurplus_bracket (isBracket_of_closing hk), hclose hk] at hsurplus
    obtain ⟨e, es, vs, hitems, hawaits, hus⟩ := (h.ends (hclose hk)).of_reduce hr
    apply InOrder.of_ends
    · omega
    · rw [unbracketed_append, unbracketed_bracket (isBracket_of_closing hk), unbracketed_nil,
        List.append_nil]
      cases hawaits with
      | group hrest => exact ⟨e, es, vs, hitems, hrest, hus⟩

end

/-! ## Brackets in their turn -/

section

variable {pre post : List Token} {t : Token}

/-- In tokens that come out and alternate, a bracket opens where an operand is
next. -/
theorem surplus_of_opening (hts : Balanced (pre ++ t :: post))
    (hgroups : GroupsComeOut (pre ++ t :: post)) (halt : Alternates (pre ++ t :: post))
    (ht : t.kind = .opening) : operandSurplus pre = 0 := by
  rcases neverBelow_or_exists_closing post with hpost | ⟨inner, c, post', rfl, hc, hinner⟩
  · have hdepth := hts.2
    have hpre := hts.1.of_append pre (List.prefix_refl pre)
    have hrest := hpost post (List.prefix_refl post)
    rw [bracketDepth_append, bracketDepth_cons, bracketDepth_opening ht] at hdepth
    omega
  · have hinner' := hgroups pre t inner c post' ⟨rfl, ht, hc, hinner⟩
    have hsplit : pre ++ t :: (inner ++ c :: post') = (pre ++ t :: inner) ++ c :: post' := by simp
    rw [hsplit] at halt
    have hturn := halt.of_append.surplus
    have hturn' := halt.of_append.of_append.surplus
    rw [operandSurplus_append, operandSurplus_cons,
      operandSurplus_bracket (isBracket_of_opening ht), hinner'] at hturn
    omega

/-- And it closes where an operator is next. -/
theorem surplus_of_closing (hts : Balanced (pre ++ t :: post))
    (hgroups : GroupsComeOut (pre ++ t :: post)) (halt : Alternates (pre ++ t :: post))
    (ht : t.kind = .closing) : operandSurplus pre = 1 := by
  have hdepth := hts.1 (pre ++ [t]) ⟨post, by simp⟩
  rw [bracketDepth_append, bracketDepth_closing ht] at hdepth
  obtain ⟨pre', o, inner, rfl, ho, hinner⟩ := exists_opening hts.1.of_append (by omega)
  have hinner' := hgroups pre' o inner t post ⟨by simp, ho, ht, hinner⟩
  have hturn := halt.of_append.surplus
  have hturn' := halt.of_append.of_append.surplus
  rw [operandSurplus_append, operandSurplus_cons,
    operandSurplus_bracket (isBracket_of_opening ho), hinner'] at hturn ⊢
  omega

end

theorem inOrder_of_takeAll {ts : List Token} {a : Assembly} (h : takeAll {} ts = .ok a)
    (hts : Balanced ts) (hgroups : GroupsComeOut ts) (halt : Alternates ts) : InOrder ts a := by
  -- Where the partner of a bracket stands is known of the whole list only.
  have hprefix : ts <+: ts → InOrder ts a := by
    refine takeAll_induction (P := fun us b => us <+: ts → InOrder us b) ?_ h ?_
    · rintro us b t c hb hstep ⟨vs, rfl⟩
      rw [List.append_assoc, List.singleton_append] at hts hgroups halt
      refine (hb ⟨t :: vs, by simp⟩).of_step hstep ?_
        (surplus_of_opening hts hgroups halt) (surplus_of_closing hts hgroups halt)
      have hsplit : us ++ t :: vs = us ++ [t] ++ vs := by simp
      exact (hsplit ▸ halt).of_append
    · exact fun _ => ⟨fun _ => .bottom, nofun⟩
  exact hprefix (List.prefix_refl ts)

/-! ## Formulas -/

/-- The expression of a formula holds its tokens in their order, all but the
brackets, exactly when operands and operators take turns. -/
theorem tokens_eq_iff_alternates {ts : List Token} {f : Formula}
    (h : Formula.ofTokens ts = .ok f) : f.root.tokens = unbracketed ts ↔ Alternates ts := by
  constructor
  · intro heq
    have halt := (wellKinded_of_ofTokens h).alternates.1
    rw [heq] at halt
    exact halt.of_unbracketed
  · intro halt
    obtain ⟨hts, hgroups, hsurplus⟩ := counts_of_ofTokens h
    obtain ⟨a, ha, hfinish⟩ := ofTokens_eq_ok_iff.mp h
    obtain ⟨xs, root, hr, hroot, -, rfl⟩ := finish_eq_ok_iff.mp hfinish
    have hends := (inOrder_of_takeAll ha hts hgroups halt).ends hsurplus
    obtain ⟨e, es, vs, hitems, hawaits, hus⟩ := hends.of_reduce hr
    rw [hroot] at hitems
    cases hitems
    cases hawaits
    exact hus.symm

theorem ofSource_eq_ok_iff {dialect : Dialect} {source : String} {f : Formula} :
    Formula.ofSource dialect source = .ok f ↔
      ∃ ts, scan dialect source = .ok ts ∧ Formula.ofTokens ts = .ok f := by
  unfold Formula.ofSource
  cases scan dialect source with
  | error e => exact ⟨nofun, nofun⟩
  | ok ts =>
    show (Formula.ofTokens ts).mapError Error.structural = .ok f ↔ _
    constructor
    · intro h
      refine ⟨ts, rfl, ?_⟩
      cases hts : Formula.ofTokens ts with
      | error e =>
        rw [hts] at h
        cases h
      | ok g =>
        rw [hts] at h
        cases h
        rfl
    · rintro ⟨ts', hscan, hts⟩
      cases hscan
      rw [hts]
      rfl

/-- The expression that a source makes holds the source's tokens in their
order, all but the brackets, and so does its text, exactly when operands and
operators take turns in the source. -/
theorem order_of_ofSource {dialect : Dialect} {source : String} {f : Formula}
    (h : Formula.ofSource dialect source = .ok f) :
    ∃ ts, scan dialect source = .ok ts ∧
      ((f.root.tokens = unbracketed ts ∧
        f.root.text = String.join ((unbracketed ts).map (·.text))) ↔ Alternates ts) := by
  obtain ⟨ts, hscan, hts⟩ := ofSource_eq_ok_iff.mp h
  refine ⟨ts, hscan, ?_⟩
  rw [← tokens_eq_iff_alternates hts, Expr.text_eq_join_tokens]
  exact ⟨And.left, fun heq => ⟨heq, by rw [heq]⟩⟩

/-- In `(1+2)*3` they take turns, and what is lost is the brackets. -/
theorem order_of_ofSource_product :
    ∃ f ts, Formula.ofSource .symbolic "(1+2)*3" = .ok f ∧ scan .symbolic "(1+2)*3" = .ok ts ∧
      Alternates ts ∧ f.root.tokens = unbracketed ts ∧ f.root.text = "1+2*3" := by
  have hsource : Formula.ofSource .symbolic "(1+2)*3" = .ok _ := rfl
  obtain ⟨ts, hscan, horder⟩ := order_of_ofSource hsource
  have halt : Alternates ts := by
    cases hscan
    decide
  exact ⟨_, ts, hsource, hscan, halt, (horder.mpr halt).1, rfl⟩

/-- The formula of `1 2 +` does not hold its tokens in their order. -/
theorem not_order_of_ofSource_postfix :
    ∃ f ts, Formula.ofSource .symbolic "1 2 +" = .ok f ∧ scan .symbolic "1 2 +" = .ok ts ∧
      f.root.tokens ≠ unbracketed ts ∧ f.root.text = "1+2" ∧
      String.join ((unbracketed ts).map (·.text)) = "12+" :=
  ⟨_, _, rfl, rfl, by decide, rfl, rfl⟩

end Calculator
