import Calculator.Formula.Assembly
import Mathlib.Data.List.Basic
import Mathlib.Data.List.Induction

/-!
# The steps of an assembly

What joining, reducing and taking a token do to an assembly, said once for
all modules that follow a run.

* `items_of_join`, `exists_join` and `lacksOperands_of_join` are the three
  things there are to know about a join.
* `reduce_induction` carries a property of the waiting entries and the
  operands through a reduction, and `reduce_rest` says where one stops.
* `Step` lists the four ways in which a token can be taken, and
  `step_of_take`, `take_of_step` and `take_eq_error` say that there are no others.
* `takeAll_induction` carries a property of the tokens taken and the assembly
  they lead to through a run.
* `finish_eq_ok_iff` and `finish_eq_error` are the ways in which a run ends.
-/

namespace Calculator

/-- An operator found fewer than two operands. -/
def StructureFault.LacksOperands (fault : StructureFault) : Prop :=
  ∃ operator found, fault = .missingOperands operator found

namespace Assembly

/-! ## Joins -/

section

variable {token : Token} {xs ys : Stack Expr} {e : StructureError}

theorem items_of_join (h : join token xs = .ok ys) :
    ∃ upper lower rest, xs.items = upper :: lower :: rest ∧
      ys.items = .ofOperands token lower upper :: rest := by
  unfold join at h
  split at h
  · rename_i joined hjoined
    obtain rfl := Except.ok.inj h
    exact Stack.items_of_combine? hjoined
  · cases h

theorem exists_join {upper lower : Expr} {rest : List Expr}
    (h : xs.items = upper :: lower :: rest) :
    ∃ ys, join token xs = .ok ys ∧ ys.items = .ofOperands token lower upper :: rest := by
  cases hj : join token xs with
  | ok ys =>
    obtain ⟨upper', lower', rest', hxs, hys⟩ := items_of_join hj
    rw [h] at hxs
    obtain ⟨rfl, htail⟩ := List.cons.inj hxs
    obtain ⟨rfl, rfl⟩ := List.cons.inj htail
    exact ⟨ys, rfl, hys⟩
  | error e =>
    unfold join at hj
    split at hj
    · cases hj
    · rename_i hnone
      have hheight := Stack.combine?_eq_none_iff.mp hnone
      rw [xs.height_eq, h, List.length_cons, List.length_cons] at hheight
      omega

/-- A join that finds fewer than two operands fails. -/
theorem join_of_lt (h : xs.height < 2) :
    join token xs = .error ⟨.missingOperands token.kind xs.height, token.span⟩ := by
  unfold join
  rw [Stack.combine?_eq_none_iff.mpr h]

theorem exists_items_of_le (h : 2 ≤ xs.height) :
    ∃ upper lower rest, xs.items = upper :: lower :: rest := by
  rw [xs.height_eq] at h
  match hxs : xs.items with
  | [] | [_] => simp [hxs] at h
  | upper :: lower :: rest => exact ⟨upper, lower, rest, rfl⟩

theorem lacksOperands_of_join (h : join token xs = .error e) :
    e.fault.LacksOperands ∧ xs.items.length < 2 := by
  by_cases hlow : xs.height < 2
  · rw [join_of_lt hlow] at h
    cases h
    exact ⟨⟨_, _, rfl⟩, xs.height_eq ▸ hlow⟩
  · obtain ⟨upper, lower, rest, hxs⟩ := exists_items_of_le (Nat.le_of_not_lt hlow)
    have hjoined : ∃ ys, join token xs = .ok ys ∧ _ := exists_join hxs
    obtain ⟨ys, hj, -⟩ := hjoined
    rw [hj] at h
    cases h

end

/-! ## Reductions -/

section

variable {p : Nat} {op : Operation} {t : Token} {w w' : List Waiting} {xs ys : Stack Expr}
  {e : StructureError}

theorem reduce_operator_of_lt (h : op.precedence < p) :
    reduce p (.operator op t :: w) xs = .ok (.operator op t :: w, xs) := by
  rw [reduce, if_neg (by omega)]

theorem reduce_operator_of_le (h : p ≤ op.precedence) (hj : join t xs = .ok ys) :
    reduce p (.operator op t :: w) xs = reduce p w ys := by
  rw [reduce, if_pos h, hj]

/-- A reduction leaves an operator alone or lets it join its operands first. -/
theorem reduce_operator_eq_ok (h : reduce p (.operator op t :: w) xs = .ok (w', ys)) :
    (op.precedence < p ∧ w' = .operator op t :: w ∧ ys = xs) ∨
      ∃ zs, join t xs = .ok zs ∧ reduce p w zs = .ok (w', ys) := by
  by_cases hp : p ≤ op.precedence
  · cases hj : join t xs with
    | ok zs =>
      rw [reduce_operator_of_le hp hj] at h
      exact .inr ⟨zs, rfl, h⟩
    | error e =>
      rw [reduce, if_pos hp, hj] at h
      cases h
  · rw [reduce_operator_of_lt (by omega)] at h
    cases h
    exact .inl ⟨by omega, rfl, rfl⟩

theorem reduce_operator_eq_error (h : reduce p (.operator op t :: w) xs = .error e) :
    p ≤ op.precedence ∧
      (join t xs = .error e ∨ ∃ zs, join t xs = .ok zs ∧ reduce p w zs = .error e) := by
  by_cases hp : p ≤ op.precedence
  · refine ⟨hp, ?_⟩
    cases hj : join t xs with
    | ok zs =>
      rw [reduce_operator_of_le hp hj] at h
      exact .inr ⟨zs, rfl, h⟩
    | error e =>
      rw [reduce, if_pos hp, hj] at h
      cases h
      exact .inl rfl
  · rw [reduce_operator_of_lt (by omega)] at h
    cases h

/-- What every join keeps, a reduction keeps. -/
theorem reduce_induction {P : List Waiting → Stack Expr → Prop}
    (hjoin : ∀ {op t w xs ys}, P (.operator op t :: w) xs → join t xs = .ok ys → P w ys)
    (h : reduce p w xs = .ok (w', ys)) (hP : P w xs) : P w' ys := by
  induction w generalizing xs with
  | nil =>
    cases h
    exact hP
  | cons x w ih =>
    cases x with
    | group bracket height =>
      cases h
      exact hP
    | operator op t =>
      rcases reduce_operator_eq_ok h with ⟨-, rfl, rfl⟩ | ⟨zs, hj, hr⟩
      · exact hP
      · exact ih hr (hjoin hP hj)

/-- Where a reduction stops: at the bottom, at an opening bracket, or at an
operator that binds less tightly. -/
theorem reduce_rest (h : reduce p w xs = .ok (w', ys)) :
    w' = [] ∨ (∃ bracket height rest, w' = .group bracket height :: rest) ∨
      ∃ op t rest, w' = .operator op t :: rest ∧ op.precedence < p := by
  induction w generalizing xs with
  | nil =>
    cases h
    exact .inl rfl
  | cons x w ih =>
    cases x with
    | group bracket height =>
      cases h
      exact .inr (.inl ⟨bracket, height, w, rfl⟩)
    | operator op t =>
      rcases reduce_operator_eq_ok h with ⟨hp, rfl, rfl⟩ | ⟨zs, hj, hr⟩
      · exact .inr (.inr ⟨op, t, w, rfl, hp⟩)
      · exact ih hr

/-- A reduction to precedence zero lets all operators join. -/
theorem reduce_zero_rest (h : reduce 0 w xs = .ok (w', ys)) :
    w' = [] ∨ ∃ bracket height rest, w' = .group bracket height :: rest := by
  rcases reduce_rest h with hw | hw | ⟨op, t, rest, -, hp⟩
  · exact .inl hw
  · exact .inr hw
  · omega

/-- No operator on top of the waiting entries binds as tightly as `p`, so that
nothing joins when an operator of precedence `p` comes in. -/
def Steady (p : Nat) (w : List Waiting) : Prop :=
  ∀ op t rest, w = .operator op t :: rest → op.precedence < p

theorem Steady.mono {q : Nat} (h : Steady p w) (hpq : p ≤ q) : Steady q w := by
  intro op t rest hw
  have hlt := h op t rest hw
  omega

theorem Steady.group (p : Nat) (o : Token) (height : Nat) (w : List Waiting) :
    Steady p (.group o height :: w) := by
  intro op t rest hw
  cases hw

theorem Steady.operator (h : op.precedence < p) (t : Token) (w : List Waiting) :
    Steady p (.operator op t :: w) := by
  intro op' t' rest hw
  cases hw
  exact h

theorem reduce_of_steady (h : Steady p w) (xs : Stack Expr) :
    reduce p w xs = .ok (w, xs) := by
  cases w with
  | nil => rfl
  | cons x w =>
    cases x with
    | group o height => rfl
    | operator op t => exact reduce_operator_of_lt (h op t w rfl)

/-- A reduction leaves nothing to join for an operator of its precedence. -/
theorem steady_of_reduce (h : reduce p w xs = .ok (w', ys)) : Steady p w' := by
  rcases reduce_rest h with rfl | ⟨o, height, rest, rfl⟩ | ⟨op, t, rest, rfl, hp⟩
  · intro op t rest hw
    cases hw
  · exact Steady.group p o height rest
  · exact Steady.operator hp t rest

theorem lacksOperands_of_reduce (h : reduce p w xs = .error e) : e.fault.LacksOperands := by
  induction w generalizing xs with
  | nil => cases h
  | cons x w ih =>
    cases x with
    | group bracket height => cases h
    | operator op t =>
      rcases (reduce_operator_eq_error h).2 with hj | ⟨zs, hj, hr⟩
      · exact (lacksOperands_of_join hj).1
      · exact ih hr

end

/-! ## Taking one token -/

/-- What an assembly notes of every token: the name it may be, and its place. -/
def note (a : Assembly) (t : Token) : Assembly :=
  { a.cover t with names := if t.kind = .name then a.names.insert t.text else a.names }

/-- The fault that a pair of brackets is noted with. -/
def groupError? (o c : Token) (before after : Nat) : Option StructureError :=
  (groupFault? before after).map fun fault => ⟨fault, o.span.hull c.span⟩

/-- Nothing is wrong with a group that leaves one operand. -/
theorem groupError?_succ (o c : Token) (before : Nat) :
    groupError? o c before (before + 1) = none := by
  rw [groupError?, groupFault?, if_neg (by omega), if_pos rfl, Option.map_none]

/-- The ways in which a token is taken. -/
inductive Step (a : Assembly) (t : Token) : Assembly → Prop
  | operand (hk : t.kind.isOperand = true) :
      Step a t { a.note t with operands := a.operands.push (.ofToken t) }
  | operator {op : Operation} {w : List Waiting} {xs : Stack Expr} (hk : t.kind = .operator op)
      (hr : reduce op.precedence a.waiting a.operands = .ok (w, xs)) :
      Step a t { a.note t with waiting := .operator op t :: w, operands := xs }
  | opening (hk : t.kind = .opening) :
      Step a t { a.note t with waiting := .group t a.operands.height :: a.waiting }
  | closing {o : Token} {height : Nat} {w : List Waiting} {xs : Stack Expr}
      (hk : t.kind = .closing)
      (hr : reduce 0 a.waiting a.operands = .ok (.group o height :: w, xs)) :
      Step a t { a.note t with
        waiting := w
        operands := xs
        badGroup := a.badGroup <|> groupError? o t height xs.height }

section

variable {a b c : Assembly} {t : Token} {ts us : List Token} {e : StructureError} {f : Formula}

theorem take_operand (hk : t.kind.isOperand = true) :
    a.take t = .ok { a.note t with operands := a.operands.push (.ofToken t) } := by
  obtain ⟨kind, text, span⟩ := t
  cases kind <;> first | rfl | cases hk

theorem take_operator {op : Operation} (hk : t.kind = .operator op) :
    a.take t = match reduce op.precedence a.waiting a.operands with
      | .ok (w, xs) => .ok { a.note t with waiting := .operator op t :: w, operands := xs }
      | .error e => .error e := by
  obtain ⟨kind, text, span⟩ := t
  subst hk
  rfl

theorem take_opening (hk : t.kind = .opening) :
    a.take t = .ok { a.note t with waiting := .group t a.operands.height :: a.waiting } := by
  obtain ⟨kind, text, span⟩ := t
  subst hk
  rfl

theorem take_closing (hk : t.kind = .closing) :
    a.take t = match reduce 0 a.waiting a.operands with
      | .ok (.group o height :: w, xs) => .ok { a.note t with
          waiting := w
          operands := xs
          badGroup := a.badGroup <|> groupError? o t height xs.height }
      | .ok _ => .error ⟨.unmatchedClosing, t.span⟩
      | .error e => .error e := by
  obtain ⟨kind, text, span⟩ := t
  subst hk
  rfl

theorem step_of_take (h : a.take t = .ok b) : Step a t b := by
  cases hk : t.kind with
  | number | name =>
    have hoperand : t.kind.isOperand = true := by rw [hk]; rfl
    rw [take_operand hoperand] at h
    cases h
    exact .operand hoperand
  | operator op =>
    rw [take_operator hk] at h
    split at h
    · rename_i hr
      cases h
      exact .operator hk hr
    · cases h
  | opening =>
    rw [take_opening hk] at h
    cases h
    exact .opening hk
  | closing =>
    rw [take_closing hk] at h
    split at h
    · rename_i hr
      cases h
      exact .closing hk hr
    · cases h
    · cases h

theorem take_of_step (h : Step a t b) : a.take t = .ok b := by
  cases h with
  | operand hk => rw [take_operand hk]
  | operator hk hr => rw [take_operator hk, hr]
  | opening hk => rw [take_opening hk]
  | closing hk hr => rw [take_closing hk, hr]

theorem reduce_of_step_operator {op : Operation} (hk : t.kind = .operator op) (h : Step a t b) :
    ∃ w, reduce op.precedence a.waiting a.operands = .ok (w, b.operands) := by
  cases h with
  | operator hk' hr =>
    rw [hk] at hk'
    cases hk'
    exact ⟨_, hr⟩
  | operand hk' | opening hk' | closing hk' =>
    rw [hk] at hk'
    cases hk'

theorem reduce_of_step_closing (hk : t.kind = .closing) (h : Step a t b) :
    ∃ w, reduce 0 a.waiting a.operands = .ok (w, b.operands) := by
  cases h with
  | closing _ hr => exact ⟨_, hr⟩
  | operand hk' | operator hk' | opening hk' =>
    rw [hk] at hk'
    cases hk'

/-- The ways in which a token is refused. -/
theorem take_eq_error (h : a.take t = .error e) :
    (∃ op, t.kind = .operator op ∧ reduce op.precedence a.waiting a.operands = .error e) ∨
      t.kind = .closing ∧ (reduce 0 a.waiting a.operands = .error e ∨
        (∃ xs, reduce 0 a.waiting a.operands = .ok ([], xs)) ∧
          e = ⟨.unmatchedClosing, t.span⟩) := by
  cases hk : t.kind with
  | number | name => rw [take_operand (by rw [hk]; rfl)] at h; cases h
  | operator op =>
    rw [take_operator hk] at h
    split at h
    · cases h
    · rename_i hr
      cases h
      exact .inl ⟨op, rfl, hr⟩
  | opening => rw [take_opening hk] at h; cases h
  | closing =>
    rw [take_closing hk] at h
    split at h
    · cases h
    · rename_i r hw hr
      cases h
      obtain ⟨w, xs⟩ := r
      rcases reduce_zero_rest hr with rfl | ⟨bracket, height, rest, rfl⟩
      · exact .inr ⟨rfl, .inr ⟨⟨xs, hr⟩, rfl⟩⟩
      · exact absurd rfl (hw bracket height rest xs)
    · rename_i hr
      cases h
      exact .inr ⟨rfl, .inl hr⟩

theorem names_of_step (h : Step a t b) : b.names = (a.note t).names := by
  cases h <;> rfl

theorem extent_of_step (h : Step a t b) : b.extent = (a.note t).extent := by
  cases h <;> rfl

/-! ## Taking tokens -/

theorem takeAll_append_eq_ok :
    a.takeAll (ts ++ us) = .ok c ↔ ∃ b, a.takeAll ts = .ok b ∧ b.takeAll us = .ok c := by
  unfold takeAll
  rw [List.foldlM_append]
  cases hts : List.foldlM take a ts with
  | ok b => exact ⟨fun h => ⟨b, rfl, h⟩, fun ⟨b', hb, h⟩ => by cases hb; exact h⟩
  | error e => exact ⟨nofun, nofun⟩

theorem takeAll_cons_eq_ok :
    a.takeAll (t :: ts) = .ok c ↔ ∃ b, Step a t b ∧ b.takeAll ts = .ok c := by
  rw [takeAll, List.foldlM_cons]
  cases ht : a.take t with
  | ok b =>
    have hstep := step_of_take ht
    refine ⟨fun h => ⟨b, hstep, h⟩, fun ⟨b', hb, h⟩ => ?_⟩
    rw [take_of_step hb] at ht
    cases ht
    exact h
  | error e =>
    refine ⟨nofun, fun ⟨b', hb, _⟩ => ?_⟩
    rw [take_of_step hb] at ht
    cases ht

theorem takeAll_concat_eq_ok :
    a.takeAll (ts ++ [t]) = .ok c ↔ ∃ b, a.takeAll ts = .ok b ∧ Step b t c := by
  rw [takeAll_append_eq_ok]
  refine exists_congr fun b => and_congr_right fun _ => ?_
  rw [takeAll_cons_eq_ok]
  constructor
  · rintro ⟨c', hstep, hc⟩
    cases hc
    exact hstep
  · intro hstep
    exact ⟨c, hstep, rfl⟩

/-- A run that fails does so at one of its tokens. -/
theorem takeAll_eq_error (h : a.takeAll ts = .error e) :
    ∃ pre t post b, ts = pre ++ t :: post ∧ a.takeAll pre = .ok b ∧ b.take t = .error e := by
  induction ts generalizing a with
  | nil => cases h
  | cons t ts ih =>
    cases ht : a.take t with
    | ok b =>
      rw [takeAll, List.foldlM_cons, ht] at h
      obtain ⟨pre, u, post, b', rfl, hpre, hu⟩ := ih h
      refine ⟨t :: pre, u, post, b', rfl, ?_, hu⟩
      exact takeAll_cons_eq_ok.mpr ⟨b, step_of_take ht, hpre⟩
    | error e' =>
      rw [takeAll, List.foldlM_cons, ht] at h
      cases h
      exact ⟨[], t, ts, a, rfl, rfl, ht⟩

/-- What every step keeps, a run keeps. -/
theorem takeAll_induction {P : List Token → Assembly → Prop}
    (hstep : ∀ {ts b t c}, P ts b → Step b t c → P (ts ++ [t]) c)
    (h : a.takeAll ts = .ok c) (hP : P [] a) : P ts c := by
  induction ts using List.reverseRecOn generalizing c with
  | nil =>
    cases h
    exact hP
  | append_singleton ts t ih =>
    obtain ⟨b, hts, ht⟩ := takeAll_concat_eq_ok.mp h
    exact hstep (ih hts) ht

/-- The names of an assembly are those it began with and those of its tokens. -/
theorem mem_names_of_takeAll {name : String} (h : a.takeAll ts = .ok c) :
    name ∈ c.names ↔ name ∈ a.names ∨ ∃ t ∈ ts, t.kind = .name ∧ t.text = name := by
  refine takeAll_induction (P := fun ts c =>
    name ∈ c.names ↔ name ∈ a.names ∨ ∃ t ∈ ts, t.kind = .name ∧ t.text = name) ?_ h (by simp)
  intro ts b t c hb hstep
  rw [names_of_step hstep, note]
  by_cases hk : t.kind = .name
  · simp only [hk, if_true, Std.ExtTreeSet.mem_insert, hb, List.mem_append, List.mem_singleton,
      Std.LawfulEqCmp.compare_eq_iff_eq]
    grind
  · simp only [hk, if_false, hb, List.mem_append, List.mem_singleton]
    grind

/-! ## Formulas -/

theorem finish_eq_ok_iff :
    a.finish = .ok f ↔ ∃ xs root, reduce 0 a.waiting a.operands = .ok ([], xs) ∧
      xs.items = [root] ∧ a.badGroup = none ∧ f = ⟨root, a.names⟩ := by
  unfold finish
  cases hr : reduce 0 a.waiting a.operands with
  | error e => simp
  | ok r =>
    obtain ⟨w, xs⟩ := r
    rcases reduce_zero_rest hr with rfl | ⟨bracket, height, rest, rfl⟩
    · cases hb : a.badGroup with
      | some e => simp
      | none =>
        rcases hxs : xs.items with _ | ⟨root, _ | ⟨second, rest⟩⟩ <;> simp [hxs, eq_comm]
    · simp

/-- The ways in which an assembly does not come to a formula. -/
theorem finish_eq_error (h : a.finish = .error e) :
    reduce 0 a.waiting a.operands = .error e ∨
      (∃ o height rest xs, reduce 0 a.waiting a.operands = .ok (.group o height :: rest, xs) ∧
        e = ⟨.unclosedOpening, o.span⟩) ∨
      ∃ xs, reduce 0 a.waiting a.operands = .ok ([], xs) ∧
        (a.badGroup = some e ∨ a.badGroup = none ∧ xs.height ≠ 1 ∧
          e = ⟨.leftoverOperands xs.height, a.extent.getD .nowhere⟩) := by
  unfold finish at h
  cases hr : reduce 0 a.waiting a.operands with
  | error e' =>
    rw [hr] at h
    cases h
    exact .inl rfl
  | ok r =>
    rw [hr] at h
    obtain ⟨w, xs⟩ := r
    rcases reduce_zero_rest hr with rfl | ⟨o, height, rest, rfl⟩
    · refine .inr (.inr ⟨xs, rfl, ?_⟩)
      have hheight := xs.height_eq
      cases hb : a.badGroup with
      | some e' =>
        simp only [hb] at h
        cases h
        exact .inl rfl
      | none =>
        refine .inr ⟨rfl, ?_⟩
        rcases hxs : xs.items with _ | ⟨root, _ | ⟨second, rest⟩⟩ <;> simp only [hb, hxs] at h <;>
          cases h
        · exact ⟨by rw [hheight, hxs]; nofun, rfl⟩
        · refine ⟨?_, rfl⟩
          rw [hheight, hxs, List.length_cons, List.length_cons]
          omega
    · cases h
      exact .inr (.inl ⟨o, height, rest, xs, rfl, rfl⟩)

theorem ofTokens_eq_ok_iff :
    Formula.ofTokens ts = .ok f ↔ ∃ a, takeAll {} ts = .ok a ∧ a.finish = .ok f := by
  unfold Formula.ofTokens
  cases hts : takeAll {} ts with
  | ok a => exact ⟨fun h => ⟨a, rfl, h⟩, fun ⟨a', ha, h⟩ => by cases ha; exact h⟩
  | error e => exact ⟨nofun, nofun⟩

theorem ofTokens_append (h : takeAll {} ts = .ok a) (us : List Token) :
    Formula.ofTokens (ts ++ us) = a.takeAll us >>= finish := by
  unfold Formula.ofTokens takeAll at *
  rw [List.foldlM_append, h]
  rfl

theorem ofTokens_append_of_error (h : takeAll {} ts = .error e) (us : List Token) :
    Formula.ofTokens (ts ++ us) = .error e := by
  unfold Formula.ofTokens takeAll at *
  rw [List.foldlM_append, h]
  rfl

theorem mem_names_of_ofTokens {name : String} (h : Formula.ofTokens ts = .ok f) :
    name ∈ f.names ↔ ∃ t ∈ ts, t.kind = .name ∧ t.text = name := by
  obtain ⟨a, hts, hfinish⟩ := ofTokens_eq_ok_iff.mp h
  obtain ⟨xs, root, -, -, -, rfl⟩ := finish_eq_ok_iff.mp hfinish
  rw [mem_names_of_takeAll hts]
  simp

end

end Assembly

end Calculator
