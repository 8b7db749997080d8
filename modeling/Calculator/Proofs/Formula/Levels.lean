import Calculator.Proofs.Formula.Conservation
import Calculator.Proofs.Formula.Outcome
import Mathlib.Data.List.Chain

/-!
# Levels of waiting entries

What an assembly holds on its two stacks while it takes tokens.

The entries that wait are tokens (`waitingTokens`): opening brackets, and
operators between them.  The brackets are those that nothing has closed yet
(`unclosed`), and they part the operators into levels.  Within a level the
operators bind more tightly from the bottom up, since an operator that comes in
lets all others of its level join first that bind at least as tightly.  There are
two precedences, and so a level has two operators at most.

* `unclosed` is read off the tokens alone, and `unclosed_append` and
  `unclosed_of_balanced` say how it grows.
* `Levelled` is the invariant of a run that `Nesting` lacks: the kinds of the
  entries, and the order in each level.  `Levelled.of_step` keeps it.
* `stacks_of_takeAll` puts the two together.
-/

namespace Calculator

open Assembly

/-! ## Brackets that stay open -/

/-- The bracket `o` opens a group, and none of the tokens `ts` after it closes
that group. -/
def StaysOpen (o : Token) (ts : List Token) : Prop :=
  o.kind = .opening ∧ ∀ inner c post, ¬ IsGroup (o :: ts) [] o inner c post

/-- An opening bracket stays open if the tokens after it close no bracket that
they have not opened. -/
theorem staysOpen_iff {o : Token} {ts : List Token} :
    StaysOpen o ts ↔ o.kind = .opening ∧ NeverBelow ts := by
  unfold StaysOpen
  apply and_congr_right
  intro ho
  constructor
  · intro h
    rcases neverBelow_or_exists_closing ts with hts | ⟨inner, c, post, rfl, hc, hinner⟩
    · exact hts
    · exact absurd ⟨rfl, ho, hc, hinner⟩ (h inner c post)
  · intro hts inner c post hg
    have hsplit : ts = inner ++ c :: post := (List.cons.inj hg.split).2
    exact not_neverBelow_of_closing hg.closes hg.balanced (hsplit ▸ hts)

instance (o : Token) (ts : List Token) : Decidable (StaysOpen o ts) :=
  decidable_of_iff _ staysOpen_iff.symm

/-- The opening brackets of a list that no closing bracket of it closes, in
their order. -/
def unclosed : List Token → List Token
  | [] => []
  | t :: ts => if StaysOpen t ts then t :: unclosed ts else unclosed ts

section

variable {ts us : List Token} {o : Token}

/-- Tokens that close none of the brackets before them leave these open. -/
theorem unclosed_append (hus : NeverBelow us) (ts : List Token) :
    unclosed (ts ++ us) = unclosed ts ++ unclosed us := by
  induction ts with
  | nil => rfl
  | cons t ts ih =>
    have hopen : StaysOpen t (ts ++ us) ↔ StaysOpen t ts := by
      rw [staysOpen_iff, staysOpen_iff]
      exact and_congr_right fun _ => ⟨NeverBelow.of_append, fun hts => hts.append hus⟩
    rw [List.cons_append, unclosed, unclosed, ih]
    by_cases ht : StaysOpen t ts
    · rw [if_pos (hopen.mpr ht), if_pos ht, List.cons_append]
    · rw [if_neg (fun h => ht (hopen.mp h)), if_neg ht]

theorem exists_staysOpen_of_mem_unclosed (h : o ∈ unclosed ts) :
    ∃ pre post, ts = pre ++ o :: post ∧ StaysOpen o post := by
  induction ts with
  | nil => cases h
  | cons t ts ih =>
    have further (hmem : o ∈ unclosed ts) :
        ∃ pre post, t :: ts = pre ++ o :: post ∧ StaysOpen o post := by
      obtain ⟨pre, post, rfl, ho⟩ := ih hmem
      exact ⟨t :: pre, post, rfl, ho⟩
    rw [unclosed] at h
    by_cases ht : StaysOpen t ts
    · rw [if_pos ht] at h
      rcases List.mem_cons.mp h with rfl | hmem
      · exact ⟨[], ts, rfl, ht⟩
      · exact further hmem
    · rw [if_neg ht] at h
      exact further h

/-- A balanced list leaves no bracket open. -/
theorem unclosed_of_balanced (h : Balanced ts) : unclosed ts = [] := by
  rw [List.eq_nil_iff_forall_not_mem]
  intro o ho
  obtain ⟨pre, post, rfl, hopen⟩ := exists_staysOpen_of_mem_unclosed ho
  obtain ⟨hkind, hpost⟩ := staysOpen_iff.mp hopen
  -- The bracket adds one to a depth that is not negative before it nor after it.
  have hdepth := h.2
  have hpre := h.1.of_append pre (List.prefix_refl pre)
  have hrest := hpost post (List.prefix_refl post)
  rw [bracketDepth_append, bracketDepth_cons, bracketDepth_opening hkind] at hdepth
  omega

/-- A bracket stays open before a balanced list, and is then the last one that
does. -/
theorem unclosed_append_opening (ho : o.kind = .opening) (hus : Balanced us) (ts : List Token) :
    unclosed (ts ++ o :: us) = unclosed ts ++ [o] := by
  have hopen : StaysOpen o us := staysOpen_iff.mpr ⟨ho, hus.1⟩
  have hnever : NeverBelow (o :: us) := (NeverBelow.opening ho).append hus.1
  rw [unclosed_append hnever, unclosed, if_pos hopen, unclosed_of_balanced hus]

end

/-! ## Entries as tokens -/

/-- The token that an entry waits with. -/
def Waiting.token : Waiting → Token
  | operator _ token => token
  | group bracket _ => bracket

/-- The token of an entry is of the kind that the entry takes it for. -/
def Waiting.Fits : Waiting → Prop
  | operator op token => token.kind = .operator op
  | group bracket _ => bracket.kind = .opening

/-- The tokens of the entries that wait, from the bottom up. -/
def waitingTokens (w : List Waiting) : List Token := (w.map Waiting.token).reverse

@[simp] theorem waitingTokens_nil : waitingTokens [] = [] := rfl

@[simp] theorem waitingTokens_cons (x : Waiting) (w : List Waiting) :
    waitingTokens (x :: w) = waitingTokens w ++ [x.token] := by
  simp [waitingTokens]

theorem mem_waitingTokens {w : List Waiting} {t : Token} :
    t ∈ waitingTokens w ↔ ∃ x ∈ w, x.token = t := by
  simp [waitingTokens]

/-! ## Levels -/

/-- The entries `w` are operators and opening brackets, by their kinds too, and
no operator waits right above one that binds at least as tightly. -/
inductive Levelled : List Waiting → Prop
  | nil : Levelled []
  | operator {op : Operation} {t : Token} {w : List Waiting} (hk : t.kind = .operator op)
      (hw : Levelled w) (htight : Steady op.precedence w) : Levelled (.operator op t :: w)
  | group {o : Token} {height : Nat} {w : List Waiting} (hk : o.kind = .opening)
      (hw : Levelled w) : Levelled (.group o height :: w)

namespace Levelled

variable {w w' : List Waiting} {xs ys : Stack Expr} {a b : Assembly} {t : Token}

theorem of_reduce {p : Nat} (h : Levelled w) (hr : reduce p w xs = .ok (w', ys)) : Levelled w' := by
  refine reduce_induction (P := fun w _ => Levelled w) ?_ hr h
  intro op t w xs ys hw _
  cases hw with
  | operator _ hrest _ => exact hrest

/-- Every step keeps the levels: what it takes off leaves the entries below as
they are, and an operator that it puts on has made room for itself. -/
theorem of_step (h : Levelled a.waiting) (hstep : Step a t b) : Levelled b.waiting := by
  cases hstep with
  | operand hk => exact h
  | operator hk hr => exact .operator hk (h.of_reduce hr) (steady_of_reduce hr)
  | opening hk => exact .group hk h
  | closing hk hr =>
    cases h.of_reduce hr with
    | group _ hw => exact hw

theorem of_takeAll {ts : List Token} (h : takeAll {} ts = .ok a) : Levelled a.waiting :=
  takeAll_induction (P := fun _ a => Levelled a.waiting) of_step h .nil

theorem fits (h : Levelled w) : ∀ x ∈ w, x.Fits := by
  induction h with
  | nil => exact nofun
  | operator hk _ _ ih => exact List.forall_mem_cons.mpr ⟨hk, ih⟩
  | group hk _ ih => exact List.forall_mem_cons.mpr ⟨hk, ih⟩

end Levelled

/-! ## The order in a level -/

/-- Of two kinds of operators, `above` binds more tightly than `below`. -/
def Tightens (below above : Kind) : Prop :=
  ∀ op op', below = .operator op → above = .operator op' → op.precedence < op'.precedence

/-- Neighbours that wait, from the top down. -/
theorem Levelled.isChain {w : List Waiting} (h : Levelled w) :
    (w.map fun x => x.token.kind).IsChain fun above below => Tightens below above := by
  induction h with
  | nil => exact List.IsChain.nil
  | @operator op t w hk hw htight ih =>
    cases hw with
    | nil => exact List.isChain_singleton _
    | @operator op' t' w hk' _ _ =>
      refine List.isChain_cons_cons.mpr ⟨?_, ih⟩
      show Tightens t'.kind t.kind
      rw [hk, hk']
      intro below above hbelow habove
      cases hbelow
      cases habove
      exact htight op' t' w rfl
    | @group o height w hk' _ =>
      refine List.isChain_cons_cons.mpr ⟨?_, ih⟩
      show Tightens o.kind t.kind
      rw [hk']
      exact nofun
  | @group o height w hk hw ih =>
    cases w with
    | nil => exact List.isChain_singleton _
    | cons x w =>
      refine List.isChain_cons_cons.mpr ⟨?_, ih⟩
      show Tightens x.token.kind o.kind
      rw [hk]
      exact nofun

/-- The tokens `level` are operators, and bind more tightly from the first to the
last. -/
def Ascending (level : List Token) : Prop :=
  ∃ ops : List Operation, level.map Token.kind = ops.map .operator ∧
    (ops.map Operation.precedence).Pairwise (· < ·)

theorem exists_operations {level : List Token} (h : ∀ t ∈ level, ∃ op, t.kind = .operator op) :
    ∃ ops : List Operation, level.map Token.kind = ops.map .operator := by
  induction level with
  | nil => exact ⟨[], rfl⟩
  | cons t level ih =>
    obtain ⟨op, hop⟩ := h t List.mem_cons_self
    obtain ⟨ops, hops⟩ := ih fun u hu => h u (List.mem_cons_of_mem t hu)
    refine ⟨op :: ops, ?_⟩
    rw [List.map_cons, List.map_cons, hop, hops]

/-- Neighbours that wait with no opening bracket between them are in order. -/
theorem Levelled.ascending {w : List Waiting} {below level above : List Token} (h : Levelled w)
    (hsplit : waitingTokens w = below ++ level ++ above)
    (hlevel : ∀ t ∈ level, t.kind ≠ .opening) : Ascending level := by
  have hoperators : ∀ t ∈ level, ∃ op, t.kind = .operator op := by
    intro t ht
    have hmem : t ∈ waitingTokens w := by simp [hsplit, ht]
    obtain ⟨x, hx, rfl⟩ := mem_waitingTokens.mp hmem
    have hfits := h.fits x hx
    cases x with
    | operator op t => exact ⟨op, hfits⟩
    | group o height => exact absurd hfits (hlevel o ht)
  obtain ⟨ops, hops⟩ := exists_operations hoperators
  -- A part of a chain is a chain, and one of operators alone is ordered throughout.
  have hchain := List.isChain_reverse.mpr h.isChain
  have hkinds : (w.map fun x => x.token.kind).reverse = (waitingTokens w).map Token.kind := by
    rw [waitingTokens, List.map_reverse, List.map_map]
    rfl
  rw [hkinds, hsplit, List.map_append, List.map_append] at hchain
  have hpart := hchain.infix ⟨_, _, rfl⟩
  rw [hops, List.isChain_map] at hpart
  have hprecedence : (ops.map Operation.precedence).IsChain (· < ·) := by
    rw [List.isChain_map]
    exact hpart.imp fun op op' htightens => htightens op op' rfl rfl
  exact ⟨ops, hops, hprecedence.pairwise⟩

/-- There are two precedences. -/
theorem Operation.precedence_bounds (op : Operation) : 1 ≤ op.precedence ∧ op.precedence ≤ 2 := by
  cases op <;> decide

theorem Ascending.length_le {level : List Token} (h : Ascending level) : level.length ≤ 2 := by
  obtain ⟨ops, hops, hascending⟩ := h
  have hlength : level.length = ops.length := by
    rw [← List.length_map Token.kind, hops, List.length_map]
  rw [hlength]
  rcases ops with _ | ⟨first, _ | ⟨second, _ | ⟨third, rest⟩⟩⟩
  · exact Nat.zero_le 2
  · exact Nat.le_succ 1
  · exact Nat.le_refl 2
  · simp only [List.map_cons, List.pairwise_cons, List.mem_cons, forall_eq_or_imp] at hascending
    have hfirst := first.precedence_bounds
    have hthird := third.precedence_bounds
    have hlow := hascending.1.1
    have hhigh := hascending.2.1.1
    omega

/-! ## Both stacks -/

section

variable {w : List Waiting} {ts : List Token} {t : Token} {h : Int}

theorem countP_isOperator_operator {op : Operation} (hk : t.kind = .operator op) :
    [t].countP (·.kind.isOperator) = 1 := by
  rw [List.countP_singleton, hk]
  rfl

theorem countP_isOperator_opening (hk : t.kind = .opening) :
    [t].countP (·.kind.isOperator) = 0 := by
  rw [List.countP_singleton, hk]
  rfl

/-- The opening brackets that wait are those that nothing has closed. -/
theorem Nesting.unclosed_eq (hn : Nesting w ts h) (hw : Levelled w) :
    unclosed ts = (waitingTokens w).filter (·.kind = .opening) := by
  induction hn with
  | bottom hts _ => exact unclosed_of_balanced hts
  | operator _ ih =>
    cases hw with
    | operator hk hrest _ => simp [ih hrest, Waiting.token, hk]
  | group ho _ hinner _ ih =>
    cases hw with
    | group _ hrest => simp [unclosed_append_opening ho hinner, ih hrest, Waiting.token, ho]

/-- Every operator that waits has an operand on the stack that it has not joined
yet. -/
theorem Nesting.height_eq (hn : Nesting w ts h) (hw : Levelled w) :
    h = operandSurplus ts + (waitingTokens w).countP (·.kind.isOperator) := by
  induction hn with
  | bottom _ hh => simp [hh]
  | operator _ ih =>
    cases hw with
    | operator hk hrest _ =>
      have hlower := ih hrest
      have hcount := countP_isOperator_operator hk
      rw [waitingTokens_cons, List.countP_append, Waiting.token, hcount]
      omega
  | group ho _ _ hh ih =>
    cases hw with
    | group _ hrest =>
      have hlower := ih hrest
      have hcount := countP_isOperator_opening ho
      have hbracket := operandSurplus_bracket (isBracket_of_opening ho)
      rw [operandSurplus_append, operandSurplus_cons, hbracket, waitingTokens_cons,
        List.countP_append, Waiting.token, hcount]
      omega

end

/-- What an assembly that has taken `ts` holds on its two stacks. -/
structure StacksHold (ts : List Token) (a : Assembly) : Prop where
  /-- Operators wait as operators, and opening brackets as brackets. -/
  fits : ∀ x ∈ a.waiting, x.Fits
  /-- The opening brackets that wait are those that nothing has closed. -/
  brackets : (waitingTokens a.waiting).filter (·.kind = .opening) = unclosed ts
  /-- Where no opening bracket waits between them, the entries that wait are
  operators that bind more tightly from the bottom up, two at most. -/
  levels : ∀ below level above, waitingTokens a.waiting = below ++ level ++ above →
    (∀ t ∈ level, t.kind ≠ .opening) → Ascending level ∧ level.length ≤ 2
  /-- The operands are those taken less the operators taken, save the operators
  that still wait. -/
  height : (a.operands.height : Int) =
    operandSurplus ts + (waitingTokens a.waiting).countP (·.kind.isOperator)

/-- Whatever tokens an assembly has taken, and in whatever order, this is what it
holds. -/
theorem stacks_of_takeAll {ts : List Token} {a : Assembly} (h : takeAll {} ts = .ok a) :
    StacksHold ts a := by
  have hnesting := (tracks_of_takeAll h).nesting
  have hlevelled := Levelled.of_takeAll h
  refine ⟨hlevelled.fits, (hnesting.unclosed_eq hlevelled).symm, ?_, hnesting.height_eq hlevelled⟩
  intro below level above hsplit hlevel
  have hascending := hlevelled.ascending hsplit hlevel
  exact ⟨hascending, hascending.length_le⟩

/-- After `(1)2*+(3 4 5-*` the product before the open bracket has joined its
operands, and three operators wait on two levels. -/
theorem stacks_of_takeAll_twoLevels :
    let open₁ : Token := ⟨.opening, "(", ⟨0, 1⟩⟩
    let open₂ : Token := ⟨.opening, "(", ⟨6, 7⟩⟩
    let plus : Token := ⟨.operator .add, "+", ⟨5, 6⟩⟩
    let minus : Token := ⟨.operator .sub, "-", ⟨12, 13⟩⟩
    let times : Token := ⟨.operator .mul, "*", ⟨13, 14⟩⟩
    let ts : List Token := [open₁, ⟨.number, "1", ⟨1, 2⟩⟩, ⟨.closing, ")", ⟨2, 3⟩⟩,
      ⟨.number, "2", ⟨3, 4⟩⟩, ⟨.operator .mul, "*", ⟨4, 5⟩⟩, plus, open₂,
      ⟨.number, "3", ⟨7, 8⟩⟩, ⟨.number, "4", ⟨9, 10⟩⟩, ⟨.number, "5", ⟨11, 12⟩⟩, minus, times]
    ∃ a, takeAll {} ts = .ok a ∧ StacksHold ts a ∧
      waitingTokens a.waiting = [plus, open₂, minus, times] ∧ unclosed ts = [open₂] ∧
      Ascending [minus, times] ∧ a.operands.height = 4 ∧ operandSurplus ts = 1 := by
  intro open₁ open₂ plus minus times ts
  have hrun : ∃ a, takeAll {} ts = .ok a ∧
      waitingTokens a.waiting = [plus, open₂, minus, times] ∧ a.operands.height = 4 :=
    ⟨_, rfl, rfl, rfl⟩
  obtain ⟨a, hts, hwaiting, hheight⟩ := hrun
  have hstacks : StacksHold ts a := stacks_of_takeAll hts
  have hbrackets := hstacks.brackets
  rw [hwaiting] at hbrackets
  have hlevel := (hstacks.levels [plus, open₂] [minus, times] [] hwaiting (by decide)).1
  exact ⟨a, hts, hstacks, hwaiting, hbrackets.symm, hlevel, hheight, by decide⟩

end Calculator
