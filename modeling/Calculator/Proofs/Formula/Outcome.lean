import Calculator.Proofs.Formula.Brackets
import Calculator.Proofs.Formula.Steps

/-!
# What an assembly comes to

Unless an operator lacks operands, counting and the nesting of the brackets
decide what tokens come to.

`Nesting` is the invariant of a run.  It reads the waiting entries from the top
down: what has been taken since the last opening bracket is balanced, and the
height of the operands is the one noted with that bracket, and the surplus of
the tokens since, and one for every operator that waits.  `tracks_of_takeAll`
keeps it through a run, together with the first group that does not come out
and with the extent of the tokens.

`Outcome` lists what the tokens can come to, each case with the condition it
needs.  `outcome_ofTokens` says that the list is complete, and
`ofTokens_of_counts` that the conditions, tried in their order, decide.
-/

namespace Calculator

open Assembly

/-! ## The extent of tokens -/

/-- The least span that covers all tokens of a list, if it has any. -/
def extent? : List Token → Option Span
  | [] => none
  | t :: ts => some (ts.foldl (fun span u => span.hull u.span) t.span)

/-- The least span that covers all tokens of a list. -/
def extentOf (ts : List Token) : Span := (extent? ts).getD .nowhere

theorem extent?_concat (ts : List Token) (t : Token) :
    extent? (ts ++ [t]) = some (match extent? ts with
      | some extent => extent.hull t.span
      | none => t.span) := by
  cases ts with
  | nil => rfl
  | cons u ts => simp [extent?]

theorem extent_of_takeAll {ts : List Token} {a : Assembly} (h : takeAll {} ts = .ok a) :
    a.extent = extent? ts := by
  refine takeAll_induction (P := fun ts a => a.extent = extent? ts) ?_ h rfl
  intro ts b t c hb hstep
  rw [extent_of_step hstep, extent?_concat, ← hb]
  rfl

/-! ## Nesting -/

/-- The entries `w` that wait and the height `h` of the operands are what the
tokens `ts` leave. -/
inductive Nesting : List Waiting → List Token → Int → Prop
  | bottom {ts : List Token} {h : Int} (hts : Balanced ts) (hh : h = operandSurplus ts) :
      Nesting [] ts h
  | operator {op : Operation} {t : Token} {w : List Waiting} {ts : List Token} {h : Int}
      (hw : Nesting w ts (h - 1)) : Nesting (.operator op t :: w) ts h
  | group {o : Token} {height : Nat} {w : List Waiting} {pre inner : List Token} {h : Int}
      (ho : o.kind = .opening) (hw : Nesting w pre height) (hinner : Balanced inner)
      (hh : h = height + operandSurplus inner) :
      Nesting (.group o height :: w) (pre ++ o :: inner) h

namespace Nesting

variable {w : List Waiting} {ts us : List Token} {h : Int}

theorem neverBelow (hn : Nesting w ts h) : NeverBelow ts := by
  induction hn with
  | bottom hts _ => exact hts.1
  | operator _ ih => exact ih
  | group ho _ hinner _ ih => exact ih.append ((NeverBelow.opening ho).append hinner.1)

/-- Balanced tokens change the height by their surplus. -/
theorem append (hn : Nesting w ts h) (hus : Balanced us) :
    Nesting w (ts ++ us) (h + operandSurplus us) := by
  induction hn with
  | bottom hts hh =>
    refine .bottom (hts.append hus) ?_
    rw [operandSurplus_append, hh]
  | @operator op t w ts h hw ih =>
    refine .operator ?_
    rw [show h + operandSurplus us - 1 = h - 1 + operandSurplus us by omega]
    exact ih
  | group ho hw hinner hh ih =>
    rw [List.append_assoc, List.cons_append]
    refine .group ho hw (hinner.append hus) ?_
    rw [operandSurplus_append, hh]
    omega

theorem of_join {op : Operation} {t : Token} {xs ys : Stack Expr}
    (hn : Nesting (.operator op t :: w) ts xs.height) (hj : join t xs = .ok ys) :
    Nesting w ts ys.height := by
  obtain ⟨upper, lower, rest, hxs, hys⟩ := items_of_join hj
  have hheight : (ys.height : Int) = xs.height - 1 := by
    rw [xs.height_eq, ys.height_eq, hxs, hys]
    simp only [List.length_cons]
    omega
  cases hn with
  | operator hw => exact hheight ▸ hw

theorem of_reduce {p : Nat} {w' : List Waiting} {xs ys : Stack Expr}
    (hn : Nesting w ts xs.height) (hr : reduce p w xs = .ok (w', ys)) :
    Nesting w' ts ys.height :=
  reduce_induction (P := fun w xs => Nesting w ts xs.height) of_join hr hn

theorem of_step {a b : Assembly} {t : Token} (hn : Nesting a.waiting ts a.operands.height)
    (hstep : Step a t b) : Nesting b.waiting (ts ++ [t]) b.operands.height := by
  cases hstep with
  | operand hk =>
    have happ := hn.append (.plain (isBracket_of_operand hk))
    rw [operandSurplus_operand hk] at happ
    exact happ
  | operator hk hr =>
    have happ := (hn.of_reduce hr).append (.plain (isBracket_of_operator hk))
    rw [operandSurplus_operator hk] at happ
    exact .operator happ
  | opening hk => exact .group hk hn .nil (by rw [operandSurplus_nil, Int.add_zero]; rfl)
  | @closing o height w xs hk hr =>
    cases hn.of_reduce hr with
    | @group _ _ _ pre inner _ ho hw hinner hh =>
      have happ := hw.append (.enclose ho hk hinner)
      have hsurplus : operandSurplus (o :: (inner ++ [t])) = operandSurplus inner := by
        rw [operandSurplus_cons, operandSurplus_append,
          operandSurplus_bracket (isBracket_of_opening ho),
          operandSurplus_bracket (isBracket_of_closing hk)]
        omega
      rw [hsurplus, ← hh] at happ
      rw [List.append_assoc, List.cons_append]
      exact happ

end Nesting

/-! ## The first group that does not come out -/

/-- The error of a pair of brackets with a wrong surplus between them. -/
def surplusError (o c : Token) (surplus : Int) : StructureError :=
  ⟨if surplus ≤ 0 then .emptyGroup else .leftoverOperands surplus.toNat, o.span.hull c.span⟩

theorem groupError?_eq (o c : Token) {before after : Nat} {surplus : Int}
    (h : (after : Int) = before + surplus) :
    groupError? o c before after =
      if surplus = 1 then none else some (surplusError o c surplus) := by
  unfold groupError? groupFault? surplusError
  by_cases hnone : surplus ≤ 0
  · rw [if_pos (by omega), if_neg (by omega), if_pos hnone]
    rfl
  · rw [if_neg (by omega), if_neg hnone]
    by_cases hone : surplus = 1
    · rw [if_pos (by omega), if_pos hone]
      rfl
    · rw [if_neg (by omega), if_neg hone, show after - before = surplus.toNat by omega]
      rfl

/-- `e` is the error of the group that is closed first of those whose surplus
is not one. -/
def FirstBadGroup (ts : List Token) (e : StructureError) : Prop :=
  ∃ pre o inner c post, IsGroup ts pre o inner c post ∧ GroupsComeOut (pre ++ o :: inner) ∧
    operandSurplus inner ≠ 1 ∧ e = surplusError o c (operandSurplus inner)

theorem FirstBadGroup.append {ts : List Token} {e : StructureError} (h : FirstBadGroup ts e)
    (us : List Token) : FirstBadGroup (ts ++ us) e := by
  obtain ⟨pre, o, inner, c, post, hg, hrest⟩ := h
  refine ⟨pre, o, inner, c, post ++ us, ⟨?_, hg.opens, hg.closes, hg.balanced⟩, hrest⟩
  rw [hg.split]
  simp

theorem FirstBadGroup.not_groupsComeOut {ts : List Token} {e : StructureError}
    (h : FirstBadGroup ts e) : ¬ GroupsComeOut ts := by
  obtain ⟨pre, o, inner, c, post, hg, -, hsurplus, -⟩ := h
  exact fun hts => hsurplus (hts pre o inner c post hg)

/-- What an assembly notes of the groups among the tokens it has taken. -/
def NotedGroup (ts : List Token) : Option StructureError → Prop
  | none => GroupsComeOut ts
  | some e => FirstBadGroup ts e

theorem NotedGroup.concat {ts : List Token} {t : Token} {noted : Option StructureError}
    (h : NotedGroup ts noted) (ht : t.kind ≠ .closing) : NotedGroup (ts ++ [t]) noted := by
  cases noted with
  | none => exact GroupsComeOut.concat h ht
  | some e => exact FirstBadGroup.append h [t]

theorem NotedGroup.close {pre inner : List Token} {o c : Token} {noted : Option StructureError}
    {before after : Nat} (h : NotedGroup (pre ++ o :: inner) noted) (ho : o.kind = .opening)
    (hc : c.kind = .closing) (hinner : Balanced inner)
    (hafter : (after : Int) = before + operandSurplus inner) :
    NotedGroup (pre ++ o :: inner ++ [c]) (noted <|> groupError? o c before after) := by
  cases noted with
  | some e => exact FirstBadGroup.append h [c]
  | none =>
    show NotedGroup (pre ++ o :: inner ++ [c]) (groupError? o c before after)
    rw [groupError?_eq o c hafter, List.append_assoc, List.cons_append]
    by_cases hsurplus : operandSurplus inner = 1
    · rw [if_pos hsurplus]
      exact (groupsComeOut_concat ho hc hinner).mpr ⟨h, hsurplus⟩
    · rw [if_neg hsurplus]
      exact ⟨pre, o, inner, c, [], ⟨rfl, ho, hc, hinner⟩, h, hsurplus, rfl⟩

/-! ## Runs -/

/-- What an assembly has to do with the tokens it has taken. -/
structure Tracks (ts : List Token) (a : Assembly) : Prop where
  nesting : Nesting a.waiting ts a.operands.height
  badGroup : NotedGroup ts a.badGroup

theorem Tracks.of_step {ts : List Token} {a b : Assembly} {t : Token} (h : Tracks ts a)
    (hstep : Step a t b) : Tracks (ts ++ [t]) b := by
  refine ⟨h.nesting.of_step hstep, ?_⟩
  cases hstep with
  | operand hk => exact h.badGroup.concat (by rintro hc; rw [hc] at hk; cases hk)
  | operator hk hr => exact h.badGroup.concat (by rw [hk]; nofun)
  | opening hk => exact h.badGroup.concat (by rw [hk]; nofun)
  | closing hk hr =>
    cases hn : h.nesting.of_reduce hr with
    | group ho _ hinner hh => exact h.badGroup.close ho hk hinner hh

theorem tracks_of_takeAll {ts : List Token} {a : Assembly} (h : takeAll {} ts = .ok a) :
    Tracks ts a :=
  takeAll_induction Tracks.of_step h ⟨.bottom .nil rfl, .nil⟩

/-! ## Outcomes -/

/-- What tokens can come to, with the conditions. -/
inductive Outcome (ts : List Token) : Except StructureError Formula → Prop
  | lacking {e : StructureError} (he : e.fault.LacksOperands) : Outcome ts (.error e)
  | unmatched {pre post : List Token} {c : Token} (hts : ts = pre ++ c :: post)
      (hc : c.kind = .closing) (hpre : Balanced pre) :
      Outcome ts (.error ⟨.unmatchedClosing, c.span⟩)
  | unclosed {pre post : List Token} {o : Token} (hts : ts = pre ++ o :: post)
      (ho : o.kind = .opening) (hpre : NeverBelow pre) (hpost : Balanced post) :
      Outcome ts (.error ⟨.unclosedOpening, o.span⟩)
  | badGroup {e : StructureError} (hts : Balanced ts) (hbad : FirstBadGroup ts e) :
      Outcome ts (.error e)
  | leftover {count : Nat} (hts : Balanced ts) (hgroups : GroupsComeOut ts)
      (hcount : count = operandSurplus ts) (hone : count ≠ 1) :
      Outcome ts (.error ⟨.leftoverOperands count, extentOf ts⟩)
  | formula {f : Formula} (hts : Balanced ts) (hgroups : GroupsComeOut ts)
      (hsurplus : operandSurplus ts = 1) : Outcome ts (.ok f)

theorem outcome_finish {ts : List Token} {a : Assembly} (h : takeAll {} ts = .ok a) :
    Outcome ts a.finish := by
  have htracks := tracks_of_takeAll h
  have hnoted := htracks.badGroup
  cases hfinish : a.finish with
  | ok f =>
    obtain ⟨xs, root, hr, hroot, hb, -⟩ := finish_eq_ok_iff.mp hfinish
    rw [hb] at hnoted
    cases htracks.nesting.of_reduce hr with
    | bottom hts hh =>
      refine .formula hts hnoted ?_
      rw [← hh, xs.height_eq, hroot]
      rfl
  | error e =>
    rcases finish_eq_error hfinish with hr | ⟨o, height, rest, xs, hr, rfl⟩ | ⟨xs, hr, hbad⟩
    · exact .lacking (lacksOperands_of_reduce hr)
    · cases htracks.nesting.of_reduce hr with
      | group ho hw hinner _ => exact .unclosed rfl ho hw.neverBelow hinner
    · cases htracks.nesting.of_reduce hr with
      | bottom hts hh =>
        rcases hbad with hb | ⟨hb, hone, rfl⟩ <;> rw [hb] at hnoted
        · exact .badGroup hts hnoted
        · rw [extent_of_takeAll h]
          exact .leftover hts hnoted hh hone

/-- The outcomes that are listed are all there are. -/
theorem outcome_ofTokens (ts : List Token) : Outcome ts (Formula.ofTokens ts) := by
  unfold Formula.ofTokens
  cases hts : takeAll {} ts with
  | ok a => exact outcome_finish hts
  | error e =>
    obtain ⟨pre, t, post, b, rfl, hpre, ht⟩ := takeAll_eq_error hts
    rcases take_eq_error ht with ⟨op, -, hr⟩ | ⟨hk, hr | ⟨⟨xs, hr⟩, rfl⟩⟩
    · exact .lacking (lacksOperands_of_reduce hr)
    · exact .lacking (lacksOperands_of_reduce hr)
    · cases (tracks_of_takeAll hpre).nesting.of_reduce hr with
      | bottom hbalanced _ => exact .unmatched rfl hk hbalanced

/-- Tokens that make a formula come out, as a whole and in every group. -/
theorem counts_of_ofTokens {ts : List Token} {f : Formula} (h : Formula.ofTokens ts = .ok f) :
    Balanced ts ∧ GroupsComeOut ts ∧ operandSurplus ts = 1 := by
  have houtcome := outcome_ofTokens ts
  rw [h] at houtcome
  cases houtcome with
  | formula hts hgroups hsurplus => exact ⟨hts, hgroups, hsurplus⟩

/-- If the counts come out, only a lack of operands keeps tokens from making a
formula. -/
theorem lacksOperands_of_ofTokens {ts : List Token} {e : StructureError} (hts : Balanced ts)
    (hgroups : GroupsComeOut ts) (hsurplus : operandSurplus ts = 1)
    (h : Formula.ofTokens ts = .error e) : e.fault.LacksOperands := by
  have houtcome := outcome_ofTokens ts
  rw [h] at houtcome
  cases houtcome with
  | lacking he => exact he
  | unmatched hsplit hc hpre => exact absurd (hsplit ▸ hts.1) (not_neverBelow_of_closing hc hpre)
  | unclosed hsplit ho _ hpost => exact absurd (hsplit ▸ hts) (not_balanced_of_opening ho hpost)
  | badGroup _ hbad => exact absurd hgroups hbad.not_groupsComeOut
  | leftover _ _ hcount hone => omega

/-- If the counts come out, so does an assembly whose last operators find their
operands. -/
theorem finish_of_reduce {ts : List Token} {a : Assembly} {w : List Waiting} {xs : Stack Expr}
    (h : takeAll {} ts = .ok a) (hts : Balanced ts) (hgroups : GroupsComeOut ts)
    (hsurplus : operandSurplus ts = 1) (hr : reduce 0 a.waiting a.operands = .ok (w, xs)) :
    ∃ f, a.finish = .ok f := by
  have htracks := tracks_of_takeAll h
  have hn := htracks.nesting.of_reduce hr
  have hnoted := htracks.badGroup
  rcases reduce_zero_rest hr with rfl | ⟨o, height, rest, rfl⟩
  · cases hn with
    | bottom _ hh =>
      have hlength : xs.items.length = 1 := by
        have hheight := xs.height_eq
        omega
      obtain ⟨root, hroot⟩ := List.length_eq_one_iff.mp hlength
      cases hb : a.badGroup with
      | none => exact ⟨_, finish_eq_ok_iff.mpr ⟨xs, root, hr, hroot, hb, rfl⟩⟩
      | some e =>
        rw [hb] at hnoted
        exact absurd hgroups (FirstBadGroup.not_groupsComeOut hnoted)
  · cases hn with
    | group ho _ hinner _ => exact absurd hts (not_balanced_of_opening ho hinner)

/-- Unless an operator lacks operands, brackets and counts decide, in this
order: a closing bracket that closes nothing, the first one; an opening bracket
that stays open, the last one; a group that does not come out, the one closed
first; a surplus other than one. -/
theorem ofTokens_of_counts {ts : List Token}
    (hsupplied : ∀ e, Formula.ofTokens ts = .error e → ¬ e.fault.LacksOperands) :
    ((∃ us, us <+: ts ∧ bracketDepth us < 0) →
      ∃ pre c post, ts = pre ++ c :: post ∧ c.kind = .closing ∧ Balanced pre ∧
        Formula.ofTokens ts = .error ⟨.unmatchedClosing, c.span⟩) ∧
    (NeverBelow ts → 0 < bracketDepth ts →
      ∃ pre o post, ts = pre ++ o :: post ∧ o.kind = .opening ∧ Balanced post ∧
        Formula.ofTokens ts = .error ⟨.unclosedOpening, o.span⟩) ∧
    (Balanced ts → ¬ GroupsComeOut ts →
      ∃ e, FirstBadGroup ts e ∧ Formula.ofTokens ts = .error e) ∧
    (Balanced ts → GroupsComeOut ts → operandSurplus ts ≠ 1 →
      ∃ count : Nat, count = operandSurplus ts ∧
        Formula.ofTokens ts = .error ⟨.leftoverOperands count, extentOf ts⟩) ∧
    (Balanced ts → GroupsComeOut ts → operandSurplus ts = 1 →
      ∃ f, Formula.ofTokens ts = .ok f) := by
  have houtcome := outcome_ofTokens ts
  generalize Formula.ofTokens ts = result at hsupplied houtcome ⊢
  cases houtcome with
  | lacking he => exact absurd he (hsupplied _ rfl)
  | @unmatched pre post c hts hc hpre =>
    have hbelow : ¬ NeverBelow ts := hts ▸ not_neverBelow_of_closing hc hpre
    exact ⟨fun _ => ⟨pre, c, post, hts, hc, hpre, rfl⟩, fun h => absurd h hbelow,
      fun h => absurd h.1 hbelow, fun h => absurd h.1 hbelow, fun h => absurd h.1 hbelow⟩
  | @unclosed pre post o hts ho hpre hpost =>
    have hopen : ¬ Balanced ts := hts ▸ not_balanced_of_opening ho hpost
    have hnever : NeverBelow ts :=
      hts ▸ hpre.append ((NeverBelow.opening ho).append hpost.1)
    refine ⟨?_, fun _ _ => ⟨pre, o, post, hts, ho, hpost, rfl⟩, fun h => absurd h hopen,
      fun h => absurd h hopen, fun h => absurd h hopen⟩
    rintro ⟨us, hus, hneg⟩
    exact absurd (hnever us hus) (by omega)
  | badGroup hts hbad =>
    have hgroups := hbad.not_groupsComeOut
    exact ⟨fun ⟨us, hus, hneg⟩ => absurd (hts.1 us hus) (by omega),
      fun _ hdepth => absurd hts.2 (by omega), fun _ _ => ⟨_, hbad, rfl⟩,
      fun _ h => absurd h hgroups, fun _ h => absurd h hgroups⟩
  | @leftover count hts hgroups hcount hone =>
    exact ⟨fun ⟨us, hus, hneg⟩ => absurd (hts.1 us hus) (by omega),
      fun _ hdepth => absurd hts.2 (by omega), fun _ h => absurd hgroups h,
      fun _ _ _ => ⟨count, hcount, rfl⟩, fun _ _ h => absurd h (by omega)⟩
  | @formula f hts hgroups hsurplus =>
    exact ⟨fun ⟨us, hus, hneg⟩ => absurd (hts.1 us hus) (by omega),
      fun _ hdepth => absurd hts.2 (by omega), fun _ h => absurd hgroups h,
      fun _ _ h => absurd hsurplus h, fun _ _ _ => ⟨f, rfl⟩⟩

/-- In `(1(2 3))` both groups have a wrong count, and the inner one is closed
first. -/
theorem ofTokens_of_counts_nested :
    let ts : List Token := [⟨.opening, "(", ⟨0, 1⟩⟩, ⟨.number, "1", ⟨1, 2⟩⟩,
      ⟨.opening, "(", ⟨2, 3⟩⟩, ⟨.number, "2", ⟨3, 4⟩⟩, ⟨.number, "3", ⟨5, 6⟩⟩,
      ⟨.closing, ")", ⟨6, 7⟩⟩, ⟨.closing, ")", ⟨7, 8⟩⟩]
    (∀ e, Formula.ofTokens ts = .error e → ¬ e.fault.LacksOperands) ∧ Balanced ts ∧
      ¬ GroupsComeOut ts ∧ FirstBadGroup ts ⟨.leftoverOperands 2, ⟨2, 7⟩⟩ := by
  intro ts
  have hresult : Formula.ofTokens ts = .error ⟨.leftoverOperands 2, ⟨2, 7⟩⟩ := rfl
  have hsupplied : ∀ e, Formula.ofTokens ts = .error e → ¬ e.fault.LacksOperands := by
    rintro e he ⟨operator, found, hfault⟩
    rw [hresult] at he
    cases he
    cases hfault
  have hbalanced : Balanced ts := by decide
  have hgroups : ¬ GroupsComeOut ts := by
    intro h
    have hinner : Balanced [⟨.number, "2", ⟨3, 4⟩⟩, ⟨.number, "3", ⟨5, 6⟩⟩] := by decide
    have hsurplus := h [_, _] _ _ _ [_] ⟨rfl, rfl, rfl, hinner⟩
    exact absurd hsurplus (by decide)
  obtain ⟨e, hbad, he⟩ := (ofTokens_of_counts hsupplied).2.2.1 hbalanced hgroups
  rw [hresult] at he
  cases he
  exact ⟨hsupplied, hbalanced, hgroups, hbad⟩

end Calculator
