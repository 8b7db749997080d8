import Calculator.Proofs.Expr.Nodes
import Calculator.Proofs.Formula.Outcome

/-!
# Groups on their own

What stands between two brackets that close each other, taken apart from the
rest.

A run of the tokens of a group is compared with the run of the same tokens
alone.  As long as the latter gets on, the former does the same above the
operands that were there at the opening bracket (`Over.of_takeAll`).  Where the
latter lacks operands, the former joins an operand that is not the group's
own, and the operands are `Eroded` from there on.  The count at the closing
bracket does not always show it: in `1(2*+3 4)-` the group takes one operand
and leaves two.

`group_isolated_iff` says that this is the only way in which a group of a
formula depends on what comes before it.
-/

namespace Calculator

open Assembly

/-! ## A run above other operands -/

/-- An opening bracket notes a height that is greater by the operands below. -/
def Waiting.raise (n : Nat) : Waiting → Waiting
  | .operator op t => .operator op t
  | .group o height => .group o (height + n)

/-- The assembly `a` is what `b` would be if it had begun as `base`. -/
structure Over (base b a : Assembly) : Prop where
  operands : a.operands.items = b.operands.items ++ base.operands.items
  waiting : a.waiting = b.waiting.map (.raise base.operands.height) ++ base.waiting
  badGroup : a.badGroup = (base.badGroup <|> b.badGroup)

theorem Over.refl (base : Assembly) : Over base {} base := by
  refine ⟨rfl, rfl, ?_⟩
  cases base.badGroup <;> rfl

theorem join_over {t : Token} {xs ys zs : Stack Expr} {under : List Expr}
    (h : join t xs = .ok ys) (hzs : zs.items = xs.items ++ under) :
    ∃ zs', join t zs = .ok zs' ∧ zs'.items = ys.items ++ under := by
  obtain ⟨upper, lower, rest, hxs, hys⟩ := items_of_join h
  rw [hxs, List.cons_append, List.cons_append] at hzs
  obtain ⟨zs', hj, hzs'⟩ := exists_join hzs
  exact ⟨zs', hj, by rw [hzs', hys, List.cons_append]⟩

theorem reduce_over {p n : Nat} {w w' rest : List Waiting} {xs ys zs : Stack Expr}
    {under : List Expr} (hrest : Steady 0 rest) (h : reduce p w xs = .ok (w', ys))
    (hzs : zs.items = xs.items ++ under) :
    ∃ zs', reduce p (w.map (.raise n) ++ rest) zs = .ok (w'.map (.raise n) ++ rest, zs') ∧
      zs'.items = ys.items ++ under := by
  induction w generalizing xs zs with
  | nil =>
    cases h
    exact ⟨zs, reduce_of_steady (hrest.mono (Nat.zero_le p)) zs, hzs⟩
  | cons x w ih =>
    cases x with
    | group o height =>
      cases h
      exact ⟨zs, rfl, hzs⟩
    | operator op t =>
      show ∃ zs', reduce p (.operator op t :: (w.map (.raise n) ++ rest)) zs = _ ∧ _
      by_cases hp : p ≤ op.precedence
      · rcases reduce_operator_eq_ok h with ⟨hlt, -⟩ | ⟨xs', hj, hr⟩
        · omega
        · obtain ⟨zs', hj', hzs'⟩ := join_over hj hzs
          rw [reduce_operator_of_le hp hj']
          exact ih hr hzs'
      · rw [reduce_operator_of_lt (by omega)] at h ⊢
        cases h
        exact ⟨zs, rfl, hzs⟩

theorem groupError?_add (o c : Token) (before after n : Nat) :
    groupError? o c (before + n) (after + n) = groupError? o c before after := by
  have hraised : ((after + n : Nat) : Int) = (before + n : Nat) + ((after : Int) - before) := by
    omega
  have hplain : (after : Int) = before + ((after : Int) - before) := by omega
  rw [groupError?_eq o c hraised, groupError?_eq o c hplain]

theorem Over.of_step {base a b b' : Assembly} {t : Token} (h : Over base b a)
    (hbase : Steady 0 base.waiting) (hstep : Step b t b') :
    ∃ a', Step a t a' ∧ Over base b' a' := by
  have hheight : a.operands.height = b.operands.height + base.operands.height := by
    rw [a.operands.height_eq, b.operands.height_eq, base.operands.height_eq, h.operands,
      List.length_append]
  cases hstep with
  | operand hk =>
    refine ⟨_, .operand hk, ?_, h.waiting, h.badGroup⟩
    rw [Stack.items_push, h.operands]
    rfl
  | operator hk hr =>
    obtain ⟨zs, hr', hzs⟩ := reduce_over hbase hr h.operands
    rw [← h.waiting] at hr'
    exact ⟨_, .operator hk hr', hzs, rfl, h.badGroup⟩
  | opening hk =>
    refine ⟨_, .opening hk, h.operands, ?_, h.badGroup⟩
    rw [h.waiting, hheight]
    rfl
  | @closing o height w xs hk hr =>
    obtain ⟨zs, hr', hzs⟩ := reduce_over hbase hr h.operands
    rw [← h.waiting] at hr'
    refine ⟨_, .closing hk hr', hzs, rfl, ?_⟩
    have hzs' : zs.height = xs.height + base.operands.height := by
      rw [zs.height_eq, xs.height_eq, base.operands.height_eq, hzs, List.length_append]
    show (a.badGroup <|> groupError? o t (height + base.operands.height) zs.height) =
      (base.badGroup <|> b.badGroup <|> groupError? o t height xs.height)
    rw [h.badGroup, hzs', groupError?_add]
    cases base.badGroup <;> rfl

theorem Over.of_takeAll {base a b b' : Assembly} {ts : List Token} (h : Over base b a)
    (hbase : Steady 0 base.waiting) (hts : b.takeAll ts = .ok b') :
    ∃ a', a.takeAll ts = .ok a' ∧ Over base b' a' := by
  induction ts generalizing a b with
  | nil =>
    cases hts
    exact ⟨a, rfl, h⟩
  | cons t ts ih =>
    obtain ⟨b₁, hstep, hrest⟩ := takeAll_cons_eq_ok.mp hts
    obtain ⟨a₁, hstep', h₁⟩ := h.of_step hbase hstep
    obtain ⟨a', hrest', h'⟩ := ih h₁ hrest
    exact ⟨a', takeAll_cons_eq_ok.mpr ⟨a₁, hstep', hrest'⟩, h'⟩

/-! ## Erosion -/

/-- One of the operands `under` has been taken into a larger expression, and
those below it have not been touched. -/
def Eroded (under xs : List Expr) : Prop :=
  ∃ taken old rest upper new, under = taken ++ old :: rest ∧ xs = upper ++ new :: rest ∧
    Expr.size old < Expr.size new

/-- Operands that are still there have not been eroded. -/
theorem not_eroded_append (front under : List Expr) : ¬ Eroded under (front ++ under) := by
  rintro ⟨taken, old, rest, upper, new, hunder, hxs, hsize⟩
  rw [hunder, ← List.append_assoc] at hxs
  obtain ⟨-, htail⟩ := List.append_inj' hxs rfl
  obtain ⟨rfl, -⟩ := List.cons.inj htail
  omega

namespace Eroded

variable {under : List Expr} {a b : Assembly} {t : Token}

/-- A join that needs more than the operands in front of `under` erodes it. -/
theorem of_join {xs ys : Stack Expr} {front : List Expr} (hxs : xs.items = front ++ under)
    (hfront : front.length < 2) (hj : join t xs = .ok ys) : Eroded under ys.items := by
  obtain ⟨upper, lower, rest, hitems, hys⟩ := items_of_join hj
  rw [hitems] at hxs
  have hsize : Expr.size lower < Expr.size (.ofOperands t lower upper) := by
    rw [Expr.size_ofOperands]
    omega
  match front with
  | [] => exact ⟨[upper], lower, rest, [], _, hxs.symm, hys, hsize⟩
  | [e] =>
    obtain ⟨rfl, rfl⟩ := List.cons.inj hxs
    exact ⟨[], lower, rest, [], _, rfl, hys, hsize⟩
  | _ :: _ :: _ => simp only [List.length_cons] at hfront; omega

theorem join {xs ys : Stack Expr} (h : Eroded under xs.items) (hj : join t xs = .ok ys) :
    Eroded under ys.items := by
  obtain ⟨taken, old, rest, upper, new, hunder, hxs, hsize⟩ := h
  obtain ⟨right, left, rest', hitems, hys⟩ := items_of_join hj
  rw [hitems] at hxs
  match upper with
  | [] =>
    -- The larger expression is the right operand, so the one below it goes too.
    obtain ⟨rfl, rfl⟩ := List.cons.inj hxs
    refine ⟨taken ++ [old], left, rest', [], _, by rw [hunder]; simp, hys, ?_⟩
    rw [Expr.size_ofOperands]
    omega
  | [e] =>
    obtain ⟨rfl, htail⟩ := List.cons.inj hxs
    obtain ⟨rfl, rfl⟩ := List.cons.inj htail
    refine ⟨taken, old, rest', [], _, hunder, hys, ?_⟩
    rw [Expr.size_ofOperands]
    omega
  | e :: e' :: upper =>
    obtain ⟨rfl, htail⟩ := List.cons.inj hxs
    obtain ⟨rfl, rfl⟩ := List.cons.inj htail
    exact ⟨taken, old, rest, _ :: upper, new, hunder, hys, hsize⟩

theorem reduce {p : Nat} {w w' : List Waiting} {xs ys : Stack Expr} (h : Eroded under xs.items)
    (hr : reduce p w xs = .ok (w', ys)) : Eroded under ys.items :=
  reduce_induction (P := fun _ xs => Eroded under xs.items) (fun h hj => h.join hj) hr h

theorem of_step (h : Eroded under a.operands.items) (hstep : Step a t b) :
    Eroded under b.operands.items := by
  cases hstep with
  | operand hk =>
    obtain ⟨taken, old, rest, upper, new, hunder, hxs, hsize⟩ := h
    refine ⟨taken, old, rest, .ofToken t :: upper, new, hunder, ?_, hsize⟩
    rw [Stack.items_push, hxs]
    rfl
  | operator hk hr => exact h.reduce hr
  | opening hk => exact h
  | closing hk hr => exact h.reduce hr

theorem of_takeAll {ts : List Token} (h : Eroded under a.operands.items)
    (hts : a.takeAll ts = .ok b) : Eroded under b.operands.items :=
  takeAll_induction (P := fun _ c => Eroded under c.operands.items)
    (fun h hstep => h.of_step hstep) hts h

/-- A reduction that lacks operands erodes those it finds below. -/
theorem of_reduce {p n : Nat} {w w' rest : List Waiting} {xs zs zs' : Stack Expr}
    {e : StructureError} (h : Assembly.reduce p w xs = .error e)
    (hzs : zs.items = xs.items ++ under)
    (hr : Assembly.reduce p (w.map (.raise n) ++ rest) zs = .ok (w', zs')) :
    Eroded under zs'.items := by
  induction w generalizing xs zs with
  | nil => cases h
  | cons x w ih =>
    cases x with
    | group o height => cases h
    | operator op t =>
      obtain ⟨hp, herror⟩ := reduce_operator_eq_error h
      rcases reduce_operator_eq_ok hr with ⟨hlt, -⟩ | ⟨zs₁, hj, hr₁⟩
      · omega
      rcases herror with hnone | ⟨ys, hys, hrest⟩
      · exact (of_join hzs (lacksOperands_of_join hnone).2 hj).reduce hr₁
      · obtain ⟨zs₂, hj₂, hzs₂⟩ := join_over hys hzs
        rw [hj] at hj₂
        cases hj₂
        exact ih hrest hzs₂ hr₁

/-- Where a token is refused for want of operands, the same token erodes the
operands below. -/
theorem of_take {base : Assembly} {a' : Assembly} {e : StructureError} (h : Over base b a)
    (ht : b.take t = .error e) (he : e.fault.LacksOperands) (hstep : Step a t a') :
    Eroded base.operands.items a'.operands.items := by
  have herror : ∃ p, Assembly.reduce p b.waiting b.operands = .error e ∧
      ∃ w', Assembly.reduce p a.waiting a.operands = .ok (w', a'.operands) := by
    rcases take_eq_error ht with ⟨op, hk, hr⟩ | ⟨hk, hr | ⟨-, rfl⟩⟩
    · exact ⟨op.precedence, hr, reduce_of_step_operator hk hstep⟩
    · exact ⟨0, hr, reduce_of_step_closing hk hstep⟩
    · obtain ⟨operator, found, hfault⟩ := he
      cases hfault
  obtain ⟨p, hr, w', hr'⟩ := herror
  rw [h.waiting] at hr'
  exact of_reduce hr h.operands hr'

end Eroded

/-! ## Expressions stay -/

section

variable {s : Expr} {a b : Assembly}

/-- An expression that has become an operand stays within one. -/
theorem within_of_reduce {p : Nat} {w w' : List Waiting} {xs ys : Stack Expr}
    (hr : reduce p w xs = .ok (w', ys)) (h : ∃ e ∈ xs.items, s.Within e) :
    ∃ e ∈ ys.items, s.Within e := by
  refine reduce_induction (P := fun _ xs => ∃ e ∈ xs.items, s.Within e) ?_ hr h
  rintro op t w xs ys ⟨e, he, hs⟩ hj
  obtain ⟨upper, lower, rest, hxs, hys⟩ := items_of_join hj
  rw [hxs] at he
  rw [hys]
  rcases List.mem_cons.mp he with rfl | he
  · exact ⟨_, List.mem_cons_self, .right hs⟩
  rcases List.mem_cons.mp he with rfl | he
  · exact ⟨_, List.mem_cons_self, .left hs⟩
  · exact ⟨e, List.mem_cons_of_mem _ he, hs⟩

theorem within_of_takeAll {ts : List Token} (hts : a.takeAll ts = .ok b)
    (h : ∃ e ∈ a.operands.items, s.Within e) : ∃ e ∈ b.operands.items, s.Within e := by
  refine takeAll_induction (P := fun _ c => ∃ e ∈ c.operands.items, s.Within e) ?_ hts h
  intro ts b t c hb hstep
  cases hstep with
  | operand hk =>
    obtain ⟨e, he, hs⟩ := hb
    exact ⟨e, List.mem_cons_of_mem _ he, hs⟩
  | operator hk hr => exact within_of_reduce hr hb
  | opening hk => exact hb
  | closing hk hr => exact within_of_reduce hr hb

theorem within_root {f : Formula} (hf : a.finish = .ok f)
    (h : ∃ e ∈ a.operands.items, s.Within e) : s.Within f.root := by
  obtain ⟨xs, root, hr, hxs, -, rfl⟩ := finish_eq_ok_iff.mp hf
  obtain ⟨e, he, hs⟩ := within_of_reduce hr h
  rw [hxs, List.mem_singleton] at he
  exact he ▸ hs

end

/-! ## Groups of a formula -/

/-- The tokens `us` put one operand on top of those that `ts` leave, and change
none of the latter. -/
def KeepsOperands (ts us : List Token) : Prop :=
  ∃ a b e, takeAll {} ts = .ok a ∧ takeAll {} (ts ++ us) = .ok b ∧
    b.operands.items = e :: a.operands.items

/-- The run of a list with a group in it: up to the group, through its opening
bracket, through what is inside, through its closing bracket, and on. -/
theorem IsGroup.exists_run {ts pre inner post : List Token} {o c : Token} {z : Assembly}
    (hg : IsGroup ts pre o inner c post) (hts : takeAll {} ts = .ok z) :
    ∃ a a₀ a₁ a₂, takeAll {} pre = .ok a ∧ Step a o a₀ ∧ a₀.takeAll inner = .ok a₁ ∧
      Step a₁ c a₂ ∧ a₂.takeAll post = .ok z := by
  rw [hg.split] at hts
  obtain ⟨a, hpre, hts⟩ := takeAll_append_eq_ok.mp hts
  obtain ⟨a₀, ho, hts⟩ := takeAll_cons_eq_ok.mp hts
  obtain ⟨a₁, hinner, hts⟩ := takeAll_append_eq_ok.mp hts
  obtain ⟨a₂, hc, hpost⟩ := takeAll_cons_eq_ok.mp hts
  exact ⟨a, a₀, a₁, a₂, hpre, ho, hinner, hc, hpost⟩

section

variable {inner : List Token} {a a₀ a₁ a₂ : Assembly} {o c : Token}

theorem operands_of_opening (ho : o.kind = .opening) (hstep : Step a o a₀) :
    a₀.operands = a.operands ∧ Steady 0 a₀.waiting := by
  have htake := take_of_step hstep
  rw [take_opening ho] at htake
  cases htake
  exact ⟨rfl, .group _ _ _ _⟩

/-- Tokens that make a formula alone put the formula's root on top of the
operands that were there, and leave the rest as it was. -/
theorem takeAll_over {g : Formula} (hbase : Steady 0 a₀.waiting)
    (hg : Formula.ofTokens inner = .ok g) :
    ∃ a₁ xs, a₀.takeAll inner = .ok a₁ ∧
      reduce 0 a₁.waiting a₁.operands = .ok (a₀.waiting, xs) ∧
      xs.items = g.root :: a₀.operands.items ∧ a₁.badGroup = a₀.badGroup := by
  obtain ⟨b, hb, hfinish⟩ := ofTokens_eq_ok_iff.mp hg
  obtain ⟨ys, root, hr, hroot, hbad, rfl⟩ := finish_eq_ok_iff.mp hfinish
  obtain ⟨a₁, ha₁, hover⟩ := (Over.refl a₀).of_takeAll hbase hb
  obtain ⟨xs, hr', hxs⟩ := reduce_over hbase hr hover.operands
  rw [← hover.waiting] at hr'
  refine ⟨a₁, xs, ha₁, hr', ?_, ?_⟩
  · rw [hxs, hroot]
    rfl
  · rw [hover.badGroup, hbad]
    cases a₀.badGroup <;> rfl

/-- A group that makes a formula alone puts the formula's root on top of the
operands before it. -/
theorem operands_of_group {g : Formula} (hbase : Steady 0 a₀.waiting)
    (hinner : a₀.takeAll inner = .ok a₁) (hc : c.kind = .closing) (hclose : Step a₁ c a₂)
    (hg : Formula.ofTokens inner = .ok g) :
    a₂.operands.items = g.root :: a₀.operands.items := by
  obtain ⟨a', xs, ha', hr, hxs, -⟩ := takeAll_over hbase hg
  rw [hinner] at ha'
  cases ha'
  obtain ⟨w, hr'⟩ := reduce_of_step_closing hc hclose
  rw [hr] at hr'
  cases hr'
  exact hxs

/-- A group that makes no formula alone, although its counts come out, erodes
the operands before it. -/
theorem eroded_of_group {e : StructureError} (hbase : Steady 0 a₀.waiting)
    (hinner : a₀.takeAll inner = .ok a₁) (hc : c.kind = .closing) (hclose : Step a₁ c a₂)
    (hbalanced : Balanced inner) (hgroups : GroupsComeOut inner)
    (hsurplus : operandSurplus inner = 1) (he : Formula.ofTokens inner = .error e) :
    Eroded a₀.operands.items a₂.operands.items := by
  have hlacks := lacksOperands_of_ofTokens hbalanced hgroups hsurplus he
  unfold Formula.ofTokens at he
  cases hb : takeAll {} inner with
  | ok b =>
    rw [hb] at he
    obtain ⟨a', ha', hover⟩ := (Over.refl a₀).of_takeAll hbase hb
    rw [hinner] at ha'
    cases ha'
    obtain ⟨w, hr'⟩ := reduce_of_step_closing hc hclose
    cases hr : reduce 0 b.waiting b.operands with
    | error e' =>
      rw [hover.waiting] at hr'
      exact Eroded.of_reduce hr hover.operands hr'
    | ok r =>
      obtain ⟨f, hf⟩ := finish_of_reduce hb hbalanced hgroups hsurplus hr
      rw [show b.finish = .error e from he] at hf
      cases hf
  | error e' =>
    rw [hb] at he
    cases he
    obtain ⟨us, t, vs, b, rfl, hus, ht⟩ := takeAll_eq_error hb
    obtain ⟨x, hx, hrest⟩ := takeAll_append_eq_ok.mp hinner
    obtain ⟨y, hstep, hvs⟩ := takeAll_cons_eq_ok.mp hrest
    obtain ⟨x', hx', hover⟩ := (Over.refl a₀).of_takeAll hbase hus
    rw [hx] at hx'
    cases hx'
    exact ((Eroded.of_take hover ht hlacks hstep).of_takeAll hvs).of_step hclose

end

/-- What stands in a group of a formula makes a formula alone, whose root is
within that of the whole, exactly when the group puts one operand on top of
those before it and leaves them as they are.  Otherwise an operator inside the
group lacks operands alone. -/
theorem group_isolated_iff {ts pre inner post : List Token} {o c : Token} {f : Formula}
    (h : Formula.ofTokens ts = .ok f) (hg : IsGroup ts pre o inner c post) :
    ((∃ g, Formula.ofTokens inner = .ok g ∧ g.root.Within f.root) ↔
      KeepsOperands pre (o :: (inner ++ [c]))) ∧
    (¬ KeepsOperands pre (o :: (inner ++ [c])) ↔
      ∃ e, Formula.ofTokens inner = .error e ∧ e.fault.LacksOperands) := by
  obtain ⟨z, hts, hfinish⟩ := ofTokens_eq_ok_iff.mp h
  obtain ⟨a, a₀, a₁, a₂, hpre, hopen, hinner, hclose, hpost⟩ := hg.exists_run hts
  obtain ⟨hoperands, hbase⟩ := operands_of_opening hg.opens hopen
  have hgroup : takeAll {} (pre ++ o :: (inner ++ [c])) = .ok a₂ :=
    takeAll_append_eq_ok.mpr ⟨a, hpre, takeAll_cons_eq_ok.mpr ⟨a₀, hopen,
      takeAll_concat_eq_ok.mpr ⟨a₁, hinner, hclose⟩⟩⟩
  obtain ⟨-, hgroups, -⟩ := counts_of_ofTokens h
  have hsurplus := hgroups pre o inner c post hg
  have hgroups' : GroupsComeOut inner := by
    have hsplit : ts = (pre ++ [o]) ++ inner ++ (c :: post) := by rw [hg.split]; simp
    exact GroupsComeOut.of_append (hsplit ▸ hgroups)
  cases hresult : Formula.ofTokens inner with
  | ok g =>
    have hitems := operands_of_group hbase hinner hg.closes hclose hresult
    rw [hoperands] at hitems
    have hkeeps : KeepsOperands pre (o :: (inner ++ [c])) := ⟨a, a₂, g.root, hpre, hgroup, hitems⟩
    have hwithin : g.root.Within f.root := by
      refine within_root hfinish (within_of_takeAll hpost ⟨g.root, ?_, .self⟩)
      rw [hitems]
      exact List.mem_cons_self
    exact ⟨⟨fun _ => hkeeps, fun _ => ⟨g, rfl, hwithin⟩⟩,
      ⟨fun hnot => absurd hkeeps hnot, fun ⟨e, he, _⟩ => by cases he⟩⟩
  | error e =>
    have heroded := eroded_of_group hbase hinner hg.closes hclose hg.balanced hgroups' hsurplus
      hresult
    rw [hoperands] at heroded
    have hnot : ¬ KeepsOperands pre (o :: (inner ++ [c])) := by
      rintro ⟨a', b', e', ha', hb', hitems⟩
      rw [hpre] at ha'
      rw [hgroup] at hb'
      cases ha'
      cases hb'
      rw [hitems] at heroded
      exact not_eroded_append [e'] a.operands.items heroded
    exact ⟨⟨fun ⟨g, hg', _⟩ => (by cases hg'), fun hkeeps => absurd hkeeps hnot⟩,
      ⟨fun _ => ⟨e, rfl, lacksOperands_of_ofTokens hg.balanced hgroups' hsurplus hresult⟩,
        fun _ => hnot⟩⟩

/-- The group of `3*(1+2)` keeps to itself. -/
theorem group_isolated_iff_product :
    let times : Token := ⟨.operator .mul, "*", ⟨1, 2⟩⟩
    let o : Token := ⟨.opening, "(", ⟨2, 3⟩⟩
    let c : Token := ⟨.closing, ")", ⟨6, 7⟩⟩
    let three : Token := ⟨.number, "3", ⟨0, 1⟩⟩
    let inner : List Token :=
      [⟨.number, "1", ⟨3, 4⟩⟩, ⟨.operator .add, "+", ⟨4, 5⟩⟩, ⟨.number, "2", ⟨5, 6⟩⟩]
    ∃ f, Formula.ofTokens (three :: times :: o :: (inner ++ [c])) = .ok f ∧
      IsGroup (three :: times :: o :: (inner ++ [c])) [three, times] o inner c [] ∧
      KeepsOperands [three, times] (o :: (inner ++ [c])) ∧
      ∃ g, Formula.ofTokens inner = .ok g ∧ g.root.Within f.root := by
  intro times o c three inner
  have hbalanced : Balanced inner := by decide
  have hg : IsGroup (three :: times :: o :: (inner ++ [c])) [three, times] o inner c [] :=
    ⟨rfl, rfl, rfl, hbalanced⟩
  have hkeeps : KeepsOperands [three, times] (o :: (inner ++ [c])) := ⟨_, _, _, rfl, rfl, rfl⟩
  refine ⟨_, rfl, hg, hkeeps, ?_⟩
  exact (group_isolated_iff rfl hg).1.mpr hkeeps

/-- The group of `1(2*+3 4)-` does not: its `*` takes the operand before the
bracket and finds only one operand when the group stands alone. -/
theorem not_group_isolated_borrowed :
    let o : Token := ⟨.opening, "(", ⟨2, 3⟩⟩
    let c : Token := ⟨.closing, ")", ⟨12, 13⟩⟩
    let one : Token := ⟨.number, "1", ⟨0, 1⟩⟩
    let minus : Token := ⟨.operator .sub, "-", ⟨14, 15⟩⟩
    let times : Token := ⟨.operator .mul, "*", ⟨5, 6⟩⟩
    let inner : List Token := [⟨.number, "2", ⟨3, 4⟩⟩, times, ⟨.operator .add, "+", ⟨7, 8⟩⟩,
      ⟨.number, "3", ⟨9, 10⟩⟩, ⟨.number, "4", ⟨11, 12⟩⟩]
    (∃ f, Formula.ofTokens (one :: o :: (inner ++ [c, minus])) = .ok f) ∧
      IsGroup (one :: o :: (inner ++ [c, minus])) [one] o inner c [minus] ∧
      Formula.ofTokens inner = .error ⟨.missingOperands times.kind 1, times.span⟩ := by
  intro o c one minus times inner
  have hbalanced : Balanced inner := by decide
  exact ⟨⟨_, rfl⟩, ⟨rfl, rfl, rfl, hbalanced⟩, rfl⟩

end Calculator
