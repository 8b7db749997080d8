import Calculator.Token.Basic
import Mathlib.Data.List.Basic
import Mathlib.Data.List.Induction
import Mathlib.Data.List.Infix

/-!
# Brackets and counts

What can be said of a list of tokens by counting alone.

* `bracketDepth` counts the brackets that are left open, and `operandSurplus`
  the operands that are left over when every operator turns two operands into
  one.  `unbracketed` drops the brackets.
* `NeverBelow` lists close no bracket they have not opened, and `Balanced`
  lists also close every bracket they open.
* `IsGroup` says that two brackets of a list close each other.  An opening
  bracket that is still open is found by `exists_opening`, a closing bracket
  that closes nothing by `neverBelow_or_exists_closing`, and
  `append_opening_inj` says that no bracket has two partners.
* `GroupsComeOut` lists have a surplus of one in every group, and
  `groupsComeOut_concat` tells what a further token does to that.
-/

namespace Calculator

/-! ## Depth and surplus -/

/-- The opening brackets of a list less its closing ones. -/
def bracketDepth (ts : List Token) : Int :=
  (ts.countP (·.kind = .opening) : Int) - ts.countP (·.kind = .closing)

/-- The operands of a list less its operators. -/
def operandSurplus (ts : List Token) : Int :=
  (ts.countP (·.kind.isOperand) : Int) - ts.countP (·.kind.operation?.isSome)

/-- Brackets say how a list is grouped; all other tokens are in the formula. -/
def Kind.isBracket (kind : Kind) : Bool := kind = .opening || kind = .closing

/-- The tokens of a list that are in the formula, in their order. -/
def unbracketed (ts : List Token) : List Token := ts.filter (!·.kind.isBracket)

@[simp] theorem bracketDepth_nil : bracketDepth [] = 0 := rfl

@[simp] theorem operandSurplus_nil : operandSurplus [] = 0 := rfl

@[simp] theorem bracketDepth_append (ts us : List Token) :
    bracketDepth (ts ++ us) = bracketDepth ts + bracketDepth us := by
  simp only [bracketDepth, List.countP_append]
  omega

@[simp] theorem operandSurplus_append (ts us : List Token) :
    operandSurplus (ts ++ us) = operandSurplus ts + operandSurplus us := by
  simp only [operandSurplus, List.countP_append]
  omega

@[simp] theorem unbracketed_nil : unbracketed [] = [] := rfl

@[simp] theorem unbracketed_append (ts us : List Token) :
    unbracketed (ts ++ us) = unbracketed ts ++ unbracketed us := List.filter_append _ _

theorem bracketDepth_cons (t : Token) (ts : List Token) :
    bracketDepth (t :: ts) = bracketDepth [t] + bracketDepth ts := by
  rw [← List.singleton_append, bracketDepth_append]

theorem operandSurplus_cons (t : Token) (ts : List Token) :
    operandSurplus (t :: ts) = operandSurplus [t] + operandSurplus ts := by
  rw [← List.singleton_append, operandSurplus_append]

section

variable {t : Token}

theorem bracketDepth_opening (h : t.kind = .opening) : bracketDepth [t] = 1 := by
  simp [bracketDepth, h]

theorem bracketDepth_closing (h : t.kind = .closing) : bracketDepth [t] = -1 := by
  simp [bracketDepth, h]

theorem bracketDepth_plain (h : t.kind.isBracket = false) : bracketDepth [t] = 0 := by
  simp only [Kind.isBracket, Bool.or_eq_false_iff, decide_eq_false_iff_not] at h
  simp [bracketDepth, h.1, h.2]

theorem operandSurplus_operand (h : t.kind.isOperand = true) : operandSurplus [t] = 1 := by
  obtain ⟨kind, text, span⟩ := t
  cases kind <;> simp_all [operandSurplus, Kind.isOperand, Kind.operation?]

theorem operandSurplus_operator {op : Operation} (h : t.kind = .operator op) :
    operandSurplus [t] = -1 := by
  simp [operandSurplus, h, Kind.isOperand, Kind.operation?]

theorem operandSurplus_bracket (h : t.kind.isBracket = true) : operandSurplus [t] = 0 := by
  obtain ⟨kind, text, span⟩ := t
  cases kind <;> simp_all [operandSurplus, Kind.isBracket, Kind.isOperand, Kind.operation?]

theorem isBracket_of_opening (h : t.kind = .opening) : t.kind.isBracket = true := by
  simp [Kind.isBracket, h]

theorem isBracket_of_closing (h : t.kind = .closing) : t.kind.isBracket = true := by
  simp [Kind.isBracket, h]

theorem isBracket_of_operand (h : t.kind.isOperand = true) : t.kind.isBracket = false := by
  obtain ⟨kind, text, span⟩ := t
  cases kind <;> simp_all [Kind.isBracket, Kind.isOperand]

theorem isBracket_of_operator {op : Operation} (h : t.kind = .operator op) :
    t.kind.isBracket = false := by
  simp [Kind.isBracket, h]

theorem unbracketed_plain (h : t.kind.isBracket = false) (ts : List Token) :
    unbracketed (t :: ts) = t :: unbracketed ts := by
  rw [unbracketed, List.filter_cons_of_pos (by rw [h]; rfl), unbracketed]

theorem unbracketed_bracket (h : t.kind.isBracket = true) (ts : List Token) :
    unbracketed (t :: ts) = unbracketed ts := by
  rw [unbracketed, List.filter_cons_of_neg (by rw [h]; nofun), unbracketed]

theorem bracketDepth_ge_neg_one (t : Token) : -1 ≤ bracketDepth [t] := by
  by_cases ho : t.kind = .opening
  · rw [bracketDepth_opening ho]
    omega
  · by_cases hc : t.kind = .closing
    · exact Int.le_of_eq (bracketDepth_closing hc).symm
    · rw [bracketDepth_plain (by simp [Kind.isBracket, ho, hc])]
      omega

theorem closing_of_bracketDepth_neg (h : bracketDepth [t] < 0) : t.kind = .closing := by
  by_contra hc
  by_cases ho : t.kind = .opening
  · rw [bracketDepth_opening ho] at h
    omega
  · rw [bracketDepth_plain (by simp [Kind.isBracket, ho, hc])] at h
    omega

end

/-- Brackets have no part in the surplus. -/
theorem operandSurplus_unbracketed (ts : List Token) :
    operandSurplus (unbracketed ts) = operandSurplus ts := by
  induction ts with
  | nil => rfl
  | cons t ts ih =>
    rw [operandSurplus_cons]
    cases ht : t.kind.isBracket with
    | true => rw [unbracketed_bracket ht, operandSurplus_bracket ht, ih, Int.zero_add]
    | false => rw [unbracketed_plain ht, operandSurplus_cons, ih]

/-! ## Prefixes -/

section

variable {P : List Token → Prop} {ts : List Token} {t : Token}

instance [DecidablePred P] (ts : List Token) : Decidable (∀ us, us <+: ts → P us) :=
  decidable_of_iff (∀ us ∈ ts.inits, P us) (forall_congr' fun us => by rw [List.mem_inits])

theorem forall_prefix_nil : (∀ us, us <+: [] → P us) ↔ P [] := by
  constructor
  · intro h
    exact h [] (List.prefix_refl [])
  · intro h us hus
    exact List.prefix_nil.mp hus ▸ h

theorem forall_prefix_concat :
    (∀ us, us <+: ts ++ [t] → P us) ↔ (∀ us, us <+: ts → P us) ∧ P (ts ++ [t]) := by
  constructor
  · intro h
    exact ⟨fun us hus => h us (hus.trans (List.prefix_append ts [t])),
      h _ (List.prefix_refl (ts ++ [t]))⟩
  · intro ⟨h, ht⟩ us hus
    rcases List.prefix_concat_iff.mp hus with rfl | hus
    · exact ht
    · exact h us hus

end

/-! ## Balanced lists -/

/-- No closing bracket of the list comes before an opening bracket of its
own. -/
def NeverBelow (ts : List Token) : Prop := ∀ us, us <+: ts → 0 ≤ bracketDepth us

/-- Every bracket of the list has its partner in the list. -/
def Balanced (ts : List Token) : Prop := NeverBelow ts ∧ bracketDepth ts = 0

instance (ts : List Token) : Decidable (NeverBelow ts) :=
  inferInstanceAs (Decidable (∀ us, us <+: ts → 0 ≤ bracketDepth us))

instance (ts : List Token) : Decidable (Balanced ts) :=
  inferInstanceAs (Decidable (NeverBelow ts ∧ bracketDepth ts = 0))

theorem NeverBelow.nil : NeverBelow [] := forall_prefix_nil.mpr (Int.le_refl 0)

theorem NeverBelow.of_append {ts us : List Token} (h : NeverBelow (ts ++ us)) : NeverBelow ts :=
  fun vs hvs => h vs (hvs.trans (List.prefix_append ts us))

theorem NeverBelow.concat {ts : List Token} {t : Token} (h : NeverBelow ts)
    (ht : 0 ≤ bracketDepth (ts ++ [t])) : NeverBelow (ts ++ [t]) :=
  forall_prefix_concat.mpr ⟨h, ht⟩

theorem NeverBelow.append {ts us : List Token} (hts : NeverBelow ts) (hus : NeverBelow us) :
    NeverBelow (ts ++ us) := by
  induction us using List.reverseRecOn with
  | nil => simpa using hts
  | append_singleton us t ih =>
    rw [← List.append_assoc]
    refine (ih hus.of_append).concat ?_
    have hdepth := hts ts (List.prefix_refl ts)
    have hrest := hus (us ++ [t]) (List.prefix_refl _)
    rw [List.append_assoc, bracketDepth_append]
    omega

theorem NeverBelow.opening {t : Token} (h : t.kind = .opening) : NeverBelow [t] := by
  refine NeverBelow.nil.concat ?_
  rw [List.nil_append, bracketDepth_opening h]
  omega

theorem Balanced.nil : Balanced [] := ⟨.nil, rfl⟩

theorem Balanced.append {ts us : List Token} (hts : Balanced ts) (hus : Balanced us) :
    Balanced (ts ++ us) := by
  refine ⟨hts.1.append hus.1, ?_⟩
  rw [bracketDepth_append, hts.2, hus.2, Int.add_zero]

theorem Balanced.plain {t : Token} (h : t.kind.isBracket = false) : Balanced [t] := by
  have hdepth : bracketDepth ([] ++ [t]) = 0 := bracketDepth_plain h
  exact ⟨NeverBelow.nil.concat (Int.le_of_eq hdepth.symm), hdepth⟩

theorem Balanced.enclose {o c : Token} {ts : List Token} (ho : o.kind = .opening)
    (hc : c.kind = .closing) (hts : Balanced ts) : Balanced (o :: (ts ++ [c])) := by
  have hdepth : bracketDepth (o :: ts ++ [c]) = 0 := by
    rw [bracketDepth_append, bracketDepth_cons, bracketDepth_opening ho, bracketDepth_closing hc,
      hts.2]
    rfl
  refine ⟨?_, hdepth⟩
  have hopen : NeverBelow (o :: ts) := (NeverBelow.opening ho).append hts.1
  exact hopen.concat (Int.le_of_eq hdepth.symm)

/-! ## Partners -/

/-- A list with an open bracket has a last one, after which all brackets are
closed again. -/
theorem exists_opening {ts : List Token} (h : NeverBelow ts) (hdepth : 0 < bracketDepth ts) :
    ∃ pre o inner, ts = pre ++ o :: inner ∧ o.kind = .opening ∧ Balanced inner := by
  -- A closing bracket at the end takes up the last open bracket, and the one
  -- that is wanted lies before that: hence the induction on the length.
  induction hn : ts.length using Nat.strongRecOn generalizing ts with
  | ind n ih =>
    subst hn
    rcases List.eq_nil_or_concat' ts with rfl | ⟨us, t, rfl⟩
    · simp at hdepth
    rw [List.length_append, List.length_singleton] at ih
    rw [bracketDepth_append] at hdepth
    by_cases ho : t.kind = .opening
    · exact ⟨us, t, [], rfl, ho, .nil⟩
    by_cases hc : t.kind = .closing
    · rw [bracketDepth_closing hc] at hdepth
      obtain ⟨pre, o, inner, rfl, ho, hinner⟩ := ih us.length (by omega) h.of_append (by omega) rfl
      rw [bracketDepth_append, bracketDepth_cons, bracketDepth_opening ho, hinner.2] at hdepth
      obtain ⟨pre', o', inner', rfl, ho', hinner'⟩ :=
        ih pre.length (by rw [List.length_append]; omega) h.of_append.of_append (by omega) rfl
      refine ⟨pre', o', inner' ++ o :: (inner ++ [t]), by simp, ho', ?_⟩
      exact hinner'.append (.enclose ho hc hinner)
    · have hplain : t.kind.isBracket = false := by simp [Kind.isBracket, ho, hc]
      rw [bracketDepth_plain hplain] at hdepth
      obtain ⟨pre, o, inner, rfl, ho, hinner⟩ := ih us.length (by omega) h.of_append (by omega) rfl
      exact ⟨pre, o, inner ++ [t], by simp, ho, hinner.append (.plain hplain)⟩

/-- A list either closes no bracket it has not opened, or it has a first
closing bracket that closes nothing. -/
theorem neverBelow_or_exists_closing (ts : List Token) :
    NeverBelow ts ∨
      ∃ pre c post, ts = pre ++ c :: post ∧ c.kind = .closing ∧ Balanced pre := by
  induction ts using List.reverseRecOn with
  | nil => exact .inl .nil
  | append_singleton ts t ih =>
    rcases ih with h | ⟨pre, c, post, rfl, hc, hpre⟩
    · by_cases hdepth : 0 ≤ bracketDepth (ts ++ [t])
      · exact .inl (h.concat hdepth)
      · have hts := h ts (List.prefix_refl ts)
        have ht := bracketDepth_ge_neg_one t
        rw [bracketDepth_append] at hdepth
        refine .inr ⟨ts, t, [], rfl, closing_of_bracketDepth_neg (by omega), h, by omega⟩
    · exact .inr ⟨pre, c, post ++ [t], by simp, hc, hpre⟩

/-- A bracket that is still open is not inside a balanced list. -/
theorem not_balanced_of_opening {pre post : List Token} {o : Token} (ho : o.kind = .opening)
    (hpost : Balanced post) : ¬ Balanced (pre ++ o :: post) := by
  intro h
  have hpre := h.1.of_append pre (List.prefix_refl pre)
  have hdepth := h.2
  rw [bracketDepth_append, bracketDepth_cons, bracketDepth_opening ho, hpost.2] at hdepth
  omega

/-- A closing bracket that closes nothing leaves the list below. -/
theorem not_neverBelow_of_closing {pre post : List Token} {c : Token} (hc : c.kind = .closing)
    (hpre : Balanced pre) : ¬ NeverBelow (pre ++ c :: post) := by
  intro h
  have hdepth := h (pre ++ [c]) ⟨post, by rw [List.append_assoc]; rfl⟩
  rw [bracketDepth_append, hpre.2, bracketDepth_closing hc] at hdepth
  omega

/-- The last open bracket of a list is the only one. -/
theorem append_opening_inj {pre pre' inner inner' : List Token} {o o' : Token}
    (ho : o.kind = .opening) (ho' : o'.kind = .opening) (hinner : Balanced inner)
    (hinner' : Balanced inner') (h : pre ++ o :: inner = pre' ++ o' :: inner') :
    pre = pre' ∧ o = o' ∧ inner = inner' := by
  rcases List.append_eq_append_iff.mp h with ⟨us, rfl, hus⟩ | ⟨us, rfl, hus⟩
  · cases us with
    | nil => simpa using hus
    | cons u us =>
      obtain ⟨rfl, rfl⟩ := List.cons.inj hus
      exact absurd hinner (not_balanced_of_opening ho' hinner')
  · cases us with
    | nil => simpa [eq_comm] using hus
    | cons u us =>
      obtain ⟨rfl, rfl⟩ := List.cons.inj hus
      exact absurd hinner' (not_balanced_of_opening ho hinner)

/-! ## Groups -/

/-- The brackets `o` and `c` of a list close each other, with `inner` between
them, `pre` before and `post` after them. -/
structure IsGroup (ts pre : List Token) (o : Token) (inner : List Token) (c : Token)
    (post : List Token) : Prop where
  split : ts = pre ++ o :: (inner ++ c :: post)
  opens : o.kind = .opening
  closes : c.kind = .closing
  balanced : Balanced inner

/-- Every group of the list has one operand more than operators. -/
def GroupsComeOut (ts : List Token) : Prop :=
  ∀ pre o inner c post, IsGroup ts pre o inner c post → operandSurplus inner = 1

theorem GroupsComeOut.nil : GroupsComeOut [] := by
  intro pre o inner c post h
  have hsplit := h.split
  simp at hsplit

/-- The groups of a part are groups of the whole. -/
theorem GroupsComeOut.of_append {us ts vs : List Token} (h : GroupsComeOut (us ++ ts ++ vs)) :
    GroupsComeOut ts := by
  intro pre o inner c post hg
  refine h (us ++ pre) o inner c (post ++ vs) ⟨?_, hg.opens, hg.closes, hg.balanced⟩
  rw [hg.split]
  simp

/-- A token that closes no bracket makes no group. -/
theorem GroupsComeOut.concat {ts : List Token} {t : Token} (h : GroupsComeOut ts)
    (ht : t.kind ≠ .closing) : GroupsComeOut (ts ++ [t]) := by
  intro pre o inner c post hg
  rcases List.eq_nil_or_concat' post with rfl | ⟨post, u, rfl⟩
  · have hsplit : ts ++ [t] = (pre ++ o :: inner) ++ [c] := by rw [hg.split]; simp
    obtain ⟨-, rfl⟩ := List.append_singleton_inj.mp hsplit
    exact absurd hg.closes ht
  · have hsplit : ts ++ [t] = (pre ++ o :: (inner ++ c :: post)) ++ [u] := by rw [hg.split]; simp
    obtain ⟨hts, -⟩ := List.append_singleton_inj.mp hsplit
    exact h pre o inner c post ⟨hts, hg.opens, hg.closes, hg.balanced⟩

/-- A closing bracket makes one group, that of the last open bracket. -/
theorem groupsComeOut_concat {pre inner : List Token} {o c : Token} (ho : o.kind = .opening)
    (hc : c.kind = .closing) (hinner : Balanced inner) :
    GroupsComeOut (pre ++ o :: (inner ++ [c])) ↔
      GroupsComeOut (pre ++ o :: inner) ∧ operandSurplus inner = 1 := by
  constructor
  · intro h
    refine ⟨?_, h pre o inner c [] ⟨rfl, ho, hc, hinner⟩⟩
    have hsplit : [] ++ (pre ++ o :: inner) ++ [c] = pre ++ o :: (inner ++ [c]) := by simp
    exact GroupsComeOut.of_append (hsplit ▸ h)
  · rintro ⟨h, hsurplus⟩ pre' o' inner' c' post' hg
    rcases List.eq_nil_or_concat' post' with rfl | ⟨post', u, rfl⟩
    · have hsplit : (pre ++ o :: inner) ++ [c] = (pre' ++ o' :: inner') ++ [c'] := by
        simpa using hg.split
      obtain ⟨hopen, -⟩ := List.append_singleton_inj.mp hsplit
      obtain ⟨-, -, rfl⟩ := append_opening_inj ho hg.opens hinner hg.balanced hopen
      exact hsurplus
    · have hsplit : (pre ++ o :: inner) ++ [c] =
          (pre' ++ o' :: (inner' ++ c' :: post')) ++ [u] := by simpa using hg.split
      obtain ⟨hts, -⟩ := List.append_singleton_inj.mp hsplit
      exact h pre' o' inner' c' post' ⟨hts, hg.opens, hg.closes, hg.balanced⟩

end Calculator
