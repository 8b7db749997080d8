import Calculator.Proofs.Formula.Steps

/-!
# Two assemblies side by side

An assembly looks at the kinds of the tokens and counts the operands.  It does
not look at texts and spans, it does not tell a number from a name, and it never
looks into an operand.

`Correspondence` states what two assemblies need to have in common for that
reason: a relation of their tokens that keeps what the kinds tell, and a
relation of their operands that keeps the count, and that pushing and joining
keep.  Then each step of the one is a step of the other
(`Correspondence.agree_take`), and so are whole runs and their ends
(`Correspondence.agree_takeAll`, `Correspondence.agree_finish`).

`Agree` is how two results are compared that may be errors: errors agree when
their faults are the same, wherever they are.
-/

namespace Calculator

open Assembly

/-- Two results agree when both are there and related, or when both are missing
for the same fault. -/
inductive Agree {α β : Type} (r : α → β → Prop) :
    Except StructureError α → Except StructureError β → Prop
  | ok {a : α} {b : β} (h : r a b) : Agree r (.ok a) (.ok b)
  | error {e e' : StructureError} (h : e.fault = e'.fault) : Agree r (.error e) (.error e')

theorem Agree.bind {α β α' β' : Type} {r : α → β → Prop} {s : α' → β' → Prop}
    {x : Except StructureError α} {y : Except StructureError β}
    {f : α → Except StructureError α'} {g : β → Except StructureError β'} (h : Agree r x y)
    (hfg : ∀ a b, r a b → Agree s (f a) (g b)) : Agree s (x >>= f) (y >>= g) := by
  cases h with
  | ok h => exact hfg _ _ h
  | error h => exact .error h

theorem Agree.mono {α β : Type} {r s : α → β → Prop} {x : Except StructureError α}
    {y : Except StructureError β} (h : Agree r x y) (hrs : ∀ a b, x = .ok a → r a b → s a b) :
    Agree s x y := by
  cases h with
  | ok h => exact .ok (hrs _ _ rfl h)
  | error h => exact .error h

/-- The tokens and the operands of two assemblies, related in a way that the
assemblies keep. -/
structure Correspondence (tokens : Token → Token → Prop)
    (operands : List Expr → List Expr → Prop) : Prop where
  /-- Operands correspond to operands. -/
  isOperand : ∀ {t u}, tokens t u → t.kind.isOperand = u.kind.isOperand
  /-- Everything else corresponds to its own kind. -/
  kind : ∀ {t u}, tokens t u → t.kind.isOperand = false → t.kind = u.kind
  length : ∀ {xs ys}, operands xs ys → xs.length = ys.length
  push : ∀ {t u xs ys}, tokens t u → t.kind.isOperand = true → operands xs ys →
    operands (.ofToken t :: xs) (.ofToken u :: ys)
  join : ∀ {t u lower lower' upper upper' xs ys}, tokens t u →
    operands (upper :: lower :: xs) (upper' :: lower' :: ys) →
    operands (.ofOperands t lower upper :: xs) (.ofOperands u lower' upper' :: ys)

/-- Two waiting entries that will do the same. -/
inductive WaitAlike (tokens : Token → Token → Prop) : Waiting → Waiting → Prop
  | operator {op : Operation} {t u : Token} (h : tokens t u) (hk : t.kind = u.kind) :
      WaitAlike tokens (.operator op t) (.operator op u)
  | group {o o' : Token} {height : Nat} (h : tokens o o') :
      WaitAlike tokens (.group o height) (.group o' height)

theorem WaitAlike.refl (x : Waiting) : WaitAlike Eq x x := by
  cases x with
  | operator op t => exact .operator rfl rfl
  | group o height => exact .group rfl

/-- Two assemblies that correspond. -/
structure SideBySide (tokens : Token → Token → Prop) (operands : List Expr → List Expr → Prop)
    (a b : Assembly) : Prop where
  waiting : List.Forall₂ (WaitAlike tokens) a.waiting b.waiting
  operands : operands a.operands.items b.operands.items
  badGroup : a.badGroup.map (·.fault) = b.badGroup.map (·.fault)

/-- The first of two faults that are noted is known from the faults. -/
theorem fault_orElse {noted noted' e e' : Option StructureError}
    (h : noted.map (·.fault) = noted'.map (·.fault)) (he : e.map (·.fault) = e'.map (·.fault)) :
    (noted <|> e).map (·.fault) = (noted' <|> e').map (·.fault) := by
  cases noted with
  | none =>
    cases noted' with
    | none => exact he
    | some _ => cases h
  | some _ =>
    cases noted' with
    | none => cases h
    | some _ => exact h

/-- What is wrong with a group does not depend on where it is. -/
theorem fault_groupError? (o c : Token) (before after : Nat) :
    (groupError? o c before after).map (·.fault) = groupFault? before after := by
  rw [groupError?, Option.map_map]
  exact congrFun Option.map_id _

/-- What a run comes to whose operators have all joined their operands. -/
def settle (noted : Option StructureError) (operands : Stack Expr) (names : Names)
    (extent : Span) : Except StructureError Formula :=
  match noted, operands.items with
  | some e, _ => .error e
  | none, [root] => .ok ⟨root, names⟩
  | none, _ => .error ⟨.leftoverOperands operands.height, extent⟩

theorem finish_eq (a : Assembly) :
    a.finish = reduce 0 a.waiting a.operands >>= fun r =>
      match r.1 with
      | .group bracket _ :: _ => .error ⟨.unclosedOpening, bracket.span⟩
      | _ => settle a.badGroup r.2 a.names (a.extent.getD .nowhere) := by
  unfold finish
  cases reduce 0 a.waiting a.operands with
  | error e => rfl
  | ok r =>
    obtain ⟨w, xs⟩ := r
    rcases w with _ | ⟨_ | _, _⟩ <;> rfl

namespace Correspondence

variable {tokens : Token → Token → Prop} {operands : List Expr → List Expr → Prop}
  {t u : Token} {xs ys : Stack Expr} {w w' : List Waiting} {a b : Assembly} {ts us : List Token}

theorem height_eq (C : Correspondence tokens operands) (h : operands xs.items ys.items) :
    xs.height = ys.height := by
  rw [xs.height_eq, ys.height_eq, C.length h]

theorem agree_join (C : Correspondence tokens operands) (ht : tokens t u) (hk : t.kind = u.kind)
    (h : operands xs.items ys.items) :
    Agree (fun xs ys => operands xs.items ys.items) (Assembly.join t xs) (Assembly.join u ys) := by
  have hheight := C.height_eq h
  by_cases hlow : xs.height < 2
  · rw [join_of_lt hlow, join_of_lt (hheight ▸ hlow)]
    exact .error (by rw [hk, hheight])
  · obtain ⟨upper, lower, rest, hxs⟩ := exists_items_of_le (Nat.le_of_not_lt hlow)
    obtain ⟨upper', lower', rest', hys⟩ := exists_items_of_le (hheight ▸ Nat.le_of_not_lt hlow)
    have hleft : ∃ xs', Assembly.join t xs = .ok xs' ∧ _ := exists_join hxs
    have hright : ∃ ys', Assembly.join u ys = .ok ys' ∧ _ := exists_join hys
    obtain ⟨xs', hj, hxs'⟩ := hleft
    obtain ⟨ys', hj', hys'⟩ := hright
    rw [hxs, hys] at h
    rw [hj, hj']
    refine .ok ?_
    rw [hxs', hys']
    exact C.join ht h

theorem agree_reduce (C : Correspondence tokens operands) (p : Nat)
    (hw : List.Forall₂ (WaitAlike tokens) w w') (h : operands xs.items ys.items) :
    Agree (fun r s => List.Forall₂ (WaitAlike tokens) r.1 s.1 ∧ operands r.2.items s.2.items)
      (reduce p w xs) (reduce p w' ys) := by
  induction hw generalizing xs ys with
  | nil => exact .ok ⟨.nil, h⟩
  | cons hx hw ih =>
    cases hx with
    | group ho => exact .ok ⟨.cons (.group ho) hw, h⟩
    | @operator op t u ht hk =>
      by_cases hp : p ≤ op.precedence
      · have hj := C.agree_join ht hk h
        rw [reduce, reduce, if_pos hp, if_pos hp]
        generalize Assembly.join t xs = x at hj
        generalize Assembly.join u ys = y at hj
        cases hj with
        | ok h => exact ih h
        | error he => exact .error he
      · rw [reduce_operator_of_lt (by omega), reduce_operator_of_lt (by omega)]
        exact .ok ⟨.cons (.operator ht hk) hw, h⟩

theorem agree_take (C : Correspondence tokens operands) (ht : tokens t u)
    (h : SideBySide tokens operands a b) :
    Agree (SideBySide tokens operands) (a.take t) (b.take u) := by
  cases hoperand : t.kind.isOperand with
  | true =>
    rw [take_operand hoperand, take_operand (C.isOperand ht ▸ hoperand)]
    exact .ok ⟨h.waiting, C.push ht hoperand h.operands, h.badGroup⟩
  | false =>
    have hkind := C.kind ht hoperand
    cases hk : t.kind with
    | number | name =>
      rw [hk] at hoperand
      cases hoperand
    | operator op =>
      rw [take_operator hk, take_operator (hkind ▸ hk)]
      have hr := C.agree_reduce op.precedence h.waiting h.operands
      generalize reduce op.precedence a.waiting a.operands = x at hr
      generalize reduce op.precedence b.waiting b.operands = y at hr
      cases hr with
      | ok h' => exact .ok ⟨.cons (.operator ht hkind) h'.1, h'.2, h.badGroup⟩
      | error he => exact .error he
    | opening =>
      rw [take_opening hk, take_opening (hkind ▸ hk), C.height_eq h.operands]
      exact .ok ⟨.cons (.group ht) h.waiting, h.operands, h.badGroup⟩
    | closing =>
      rw [take_closing hk, take_closing (hkind ▸ hk)]
      have hr := C.agree_reduce 0 h.waiting h.operands
      generalize reduce 0 a.waiting a.operands = x at hr
      generalize reduce 0 b.waiting b.operands = y at hr
      cases hr with
      | error he => exact .error he
      | @ok r s h' =>
        obtain ⟨w, xs⟩ := r
        obtain ⟨w', ys⟩ := s
        obtain ⟨hw, hoperands⟩ := h'
        cases hw with
        | nil => exact .error rfl
        | cons hx hw =>
          cases hx with
          | operator => exact .error rfl
          | @group o o' height ho =>
            refine .ok ⟨hw, hoperands, fault_orElse h.badGroup ?_⟩
            rw [fault_groupError?, fault_groupError?, C.height_eq hoperands]

theorem agree_takeAll (C : Correspondence tokens operands) (hts : List.Forall₂ tokens ts us)
    (h : SideBySide tokens operands a b) :
    Agree (SideBySide tokens operands) (a.takeAll ts) (b.takeAll us) := by
  induction hts generalizing a b with
  | nil => exact .ok h
  | cons ht _ ih =>
    rw [takeAll, takeAll, List.foldlM_cons, List.foldlM_cons]
    exact (C.agree_take ht h).bind fun _ _ h' => ih h'

theorem agree_settle (C : Correspondence tokens operands) {noted noted' : Option StructureError}
    {names names' : Names} {extent extent' : Span}
    (hnoted : noted.map (·.fault) = noted'.map (·.fault)) (h : operands xs.items ys.items) :
    Agree (fun f g => operands [f.root] [g.root]) (settle noted xs names extent)
      (settle noted' ys names' extent') := by
  have hheight := C.height_eq h
  have hlength := C.length h
  unfold settle
  cases noted with
  | some e =>
    cases noted' with
    | none => cases hnoted
    | some e' => exact .error (Option.some.inj hnoted)
  | none =>
    cases noted' with
    | some e' => cases hnoted
    | none =>
      generalize xs.items = es at h hlength
      generalize ys.items = es' at h hlength
      rw [hheight]
      match es, es' with
      | [], [] => exact .error rfl
      | [root], [root'] => exact .ok h
      | _ :: _ :: _, _ :: _ :: _ => exact .error rfl

theorem agree_finish (C : Correspondence tokens operands) (h : SideBySide tokens operands a b) :
    Agree (fun f g => operands [f.root] [g.root]) a.finish b.finish := by
  rw [finish_eq, finish_eq]
  refine (C.agree_reduce 0 h.waiting h.operands).bind ?_
  rintro ⟨w, xs⟩ ⟨w', ys⟩ ⟨hw, hoperands⟩
  cases hw with
  | nil => exact C.agree_settle h.badGroup hoperands
  | cons hx _ =>
    cases hx with
    | group _ => exact .error rfl
    | operator _ _ => exact C.agree_settle h.badGroup hoperands

/-- Corresponding tokens come to corresponding expressions, or else to the same
fault. -/
theorem agree_ofTokens (C : Correspondence tokens operands) (hnil : operands [] [])
    (hts : List.Forall₂ tokens ts us) :
    Agree (fun f g => operands [f.root] [g.root]) (Formula.ofTokens ts) (Formula.ofTokens us) :=
  (C.agree_takeAll hts ⟨.nil, hnil, rfl⟩).bind fun _ _ h => C.agree_finish h

end Correspondence

end Calculator
