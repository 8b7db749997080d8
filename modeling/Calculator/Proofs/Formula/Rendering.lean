import Calculator.Proofs.Formula.Printing

/-!
# The text of an expression read back

`Expr.text` writes the tokens of an expression in their order and no brackets.
The text of an expression that can be written is always the source of a formula,
and the formula has the same tokens in the same order, because a list of operands
with operators between them is a sum (`Phrase.exists_append`).

Whether it is the same expression depends on the shape.  What is assembled without
brackets groups by precedence and to the left (`Phrase.needsNoBrackets`), and an
expression that groups so is one of its own printings without brackets
(`Expr.NeedsNoBrackets.printing`).  `ofSource_text` puts the two directions
together.
-/

namespace Calculator

/-! ## Expressions that need no brackets -/

namespace Expr

variable {e left right : Expr} {t : Token} {closed : Bool}

/-- No operand binds too loosely for its place: a left operand that is a join binds
at least as tightly as the join above it, and a right one more tightly. -/
def NeedsNoBrackets (e : Expr) : Prop :=
  ∀ (t : Token) (left right : Expr) (closed : Bool), (join t left right closed).Within e →
    ∀ p ∈ t.kind.precedence?, (∀ q ∈ left.precedence?, p ≤ q) ∧ ∀ q ∈ right.precedence?, p < q

theorem needsNoBrackets_leaf (t : Token) (closed : Bool) : (leaf t closed).NeedsNoBrackets := by
  intro _ _ _ _ h
  cases h

theorem needsNoBrackets_join :
    (join t left right closed).NeedsNoBrackets ↔
      (∀ p ∈ t.kind.precedence?,
        (∀ q ∈ left.precedence?, p ≤ q) ∧ ∀ q ∈ right.precedence?, p < q) ∧
      left.NeedsNoBrackets ∧ right.NeedsNoBrackets := by
  constructor
  · intro h
    exact ⟨h t left right closed .self, fun _ _ _ _ hs => h _ _ _ _ (.left hs),
      fun _ _ _ _ hs => h _ _ _ _ (.right hs)⟩
  · rintro ⟨htop, hleft, hright⟩ _ _ _ _ h
    cases h with
    | self => exact htop
    | left h => exact hleft _ _ _ _ h
    | right h => exact hright _ _ _ _ h

theorem precedence?_unplaced (e : Expr) : e.unplaced.precedence? = e.precedence? := by
  cases e <;> rfl

/-- The places of the tokens do not matter. -/
theorem needsNoBrackets_unplaced : e.unplaced.NeedsNoBrackets ↔ e.NeedsNoBrackets := by
  induction e with
  | leaf t closed => exact iff_of_true (needsNoBrackets_leaf _ _) (needsNoBrackets_leaf t closed)
  | join t left right closed ihl ihr =>
    rw [unplaced, needsNoBrackets_join, needsNoBrackets_join, ihl, ihr, precedence?_unplaced,
      precedence?_unplaced]
    rfl

/-- An expression that needs no brackets is printed without them. -/
theorem NeedsNoBrackets.printing (h : e.NeedsNoBrackets) (hkinds : e.WellKinded) :
    Printing false e (e.tokens.map Token.lexeme) := by
  induction e with
  | leaf t closed => exact .leaf t closed
  | join t left right closed ihl ihr =>
    obtain ⟨⟨op, hop⟩, hkleft, hkright⟩ := hkinds
    obtain ⟨htop, hleft, hright⟩ := needsNoBrackets_join.mp h
    obtain ⟨tightLeft, tightRight⟩ := htop op.precedence (by rw [hop]; rfl)
    rw [tokens, List.map_append, List.map_cons]
    refine .join hop (ihl hleft hkleft) (ihr hright hkright) ?_ ?_
    · intro p hp hlt
      exact absurd (tightLeft p hp) (Nat.not_le_of_lt hlt)
    · intro p hp hle
      exact absurd hle (Nat.not_le_of_lt (tightRight p hp))

end Expr

/-! ## Sums without brackets -/

namespace Phrase

variable {level : PhraseLevel} {ts us : List Token} {e left right : Expr} {t : Token}
  {op : Operation}

/-- What an operator joins inside a phrase binds as tightly as the phrase asks for. -/
theorem needsNoBrackets_operation (hk : t.kind = .operator op)
    (hleft : left.NeedsNoBrackets ∧ ∀ q ∈ left.precedence?, op.precedence ≤ q)
    (hright : right.NeedsNoBrackets ∧ ∀ q ∈ right.precedence?, op.precedence + 1 ≤ q) :
    (Expr.ofOperands t left right).NeedsNoBrackets ∧
      ∀ q ∈ (Expr.ofOperands t left right).precedence?, op.precedence ≤ q := by
  have hprecedence : t.kind.precedence? = some op.precedence := by
    rw [hk]
    rfl
  constructor
  · refine Expr.needsNoBrackets_join.mpr ⟨?_, hleft.1, hright.1⟩
    rw [hprecedence]
    rintro _ ⟨⟩
    exact ⟨hleft.2, hright.2⟩
  · intro q hq
    rw [Expr.ofOperands, Expr.precedence?, hprecedence] at hq
    exact Nat.le_of_eq (Option.some.inj hq)

/-- The expression of a phrase without brackets needs none. -/
theorem needsNoBrackets (h : Phrase level ts e) (hts : ∀ t ∈ ts, t.kind.isBracket = false) :
    e.NeedsNoBrackets ∧ ∀ q ∈ e.precedence?, level.threshold ≤ q := by
  induction h with
  | operand => exact ⟨Expr.needsNoBrackets_leaf _ _, nofun⟩
  | enclosed ho =>
    have hbracket := hts _ List.mem_cons_self
    rw [isBracket_of_opening ho] at hbracket
    cases hbracket
  | ofFactor _ ih =>
    obtain ⟨he, htight⟩ := ih hts
    exact ⟨he, fun q hq => Nat.le_of_succ_le (htight q hq)⟩
  | ofProduct _ ih =>
    obtain ⟨he, htight⟩ := ih hts
    exact ⟨he, fun q hq => Nat.le_of_succ_le (htight q hq)⟩
  | product hop hk _ _ ihl ihr | sum hop hk _ _ ihl ihr =>
    have hleft := ihl fun t ht => hts t (List.mem_append_left _ ht)
    have hright := ihr fun t ht => hts t (List.mem_append_right _ (List.mem_cons_of_mem _ ht))
    rcases hop with rfl | rfl <;> exact needsNoBrackets_operation hk hleft hright

/-- An operator and a factor go on with a sum. -/
theorem exists_append_factor (hk : t.kind = .operator op) (hleft : Phrase .sum ts left)
    (hright : Phrase .factor us right) : ∃ e, Phrase .sum (ts ++ t :: us) e := by
  cases op with
  | add => exact ⟨_, .sum (.inl rfl) hk hleft (.ofFactor hright)⟩
  | sub => exact ⟨_, .sum (.inr rfl) hk hleft (.ofFactor hright)⟩
  | mul | div =>
    -- The operator belongs to the last product of the sum.
    cases hleft with
    | ofProduct hproduct => exact ⟨_, .ofProduct (.product (by decide) hk hproduct hright)⟩
    | sum hop hplus hfirst hlast =>
      rw [List.append_assoc, List.cons_append]
      exact ⟨_, .sum hop hplus hfirst (.product (by decide) hk hlast hright)⟩

/-- Two sums with an operator between them are a sum, if not always one of the
two. -/
theorem exists_append (hk : t.kind = .operator op) (hleft : Phrase .sum ts left)
    (hright : Phrase level us right) : ∃ e, Phrase .sum (ts ++ t :: us) e := by
  induction hright with
  | operand hoperand => exact exists_append_factor hk hleft (.operand hoperand)
  | enclosed ho hc h _ => exact exists_append_factor hk hleft (.enclosed ho hc h)
  | ofFactor _ ih => exact ih
  | ofProduct _ ih => exact ih
  | product hop hk' _ hlast ihl _ =>
    obtain ⟨e, he⟩ := ihl
    rw [← List.cons_append, ← List.append_assoc]
    exact exists_append_factor hk' he hlast
  | sum hop hk' _ hlast ihl _ =>
    obtain ⟨e, he⟩ := ihl
    rw [← List.cons_append, ← List.append_assoc]
    exact ⟨_, .sum hop hk' he hlast⟩

end Phrase

/-! ## Texts as sources -/

namespace Expr

variable {e : Expr} {ts : List Token}

theorem WellKinded.isBracket (h : e.WellKinded) : ∀ t ∈ e.tokens, t.kind.isBracket = false := by
  induction e with
  | leaf token closed =>
    intro t ht
    rw [List.mem_singleton.mp ht]
    exact isBracket_of_operand h
  | join token left right closed ihl ihr =>
    obtain ⟨⟨op, hop⟩, hleft, hright⟩ := h
    intro t ht
    rcases List.mem_append.mp ht with ht | ht
    · exact ihl hleft t ht
    · rcases List.mem_cons.mp ht with rfl | ht
      · exact isBracket_of_operator hop
      · exact ihr hright t ht

/-- The leaves are the operands among the tokens. -/
theorem WellKinded.leaves_eq (h : e.WellKinded) :
    e.leaves = e.tokens.filter (·.kind.isOperand) := by
  induction e with
  | leaf token closed =>
    have htoken : token.kind.isOperand = true := h
    simp [leaves, tokens, htoken]
  | join token left right closed ihl ihr =>
    obtain ⟨⟨op, hop⟩, hleft, hright⟩ := h
    have htoken : token.kind.isOperand = false := by
      rw [hop]
      rfl
    simp [leaves, tokens, htoken, ihl hleft, ihr hright]

/-- No two operands are neighbours. -/
theorem WellKinded.isChain_lexemes (h : e.WellKinded) :
    (e.tokens.map Token.lexeme).IsChain Lexeme.Apart := by
  induction e with
  | leaf token closed => exact .singleton _
  | join token left right closed ihl ihr =>
    obtain ⟨⟨op, hop⟩, hleft, hright⟩ := h
    rw [tokens, List.map_append, List.map_cons]
    exact Printing.isChain_insert (by rw [Token.lexeme, hop]; rfl) (ihl hleft) (ihr hright)

/-- Tokens that are written like those of an expression are a sum. -/
theorem WellKinded.exists_sum (h : e.WellKinded)
    (hts : ts.map Token.lexeme = e.tokens.map Token.lexeme) : ∃ e', Phrase .sum ts e' := by
  induction e generalizing ts with
  | leaf token closed =>
    obtain ⟨u, rfl, hu⟩ := List.map_eq_singleton_iff.mp hts
    have hoperand : u.kind.isOperand = true := by
      rw [(Lexeme.mk.inj hu).1]
      exact h
    exact ⟨_, (Phrase.operand hoperand).of_factor .sum⟩
  | join token left right closed ihl ihr =>
    obtain ⟨⟨op, hop⟩, hleft, hright⟩ := h
    rw [tokens, List.map_append, List.map_cons] at hts
    obtain ⟨us, vs, rfl, hus, hvs⟩ := List.map_eq_append_iff.mp hts
    obtain ⟨u, vs, rfl, hu, hvs⟩ := List.map_eq_cons_iff.mp hvs
    obtain ⟨left', hleft'⟩ := ihl hleft hus
    obtain ⟨right', hright'⟩ := ihr hright hvs
    exact Phrase.exists_append ((Lexeme.mk.inj hu).1.trans hop) hleft' hright'

/-- Lexemes that are laid out without blanks are written one after the other. -/
theorem layout_map_zero (ls : List Lexeme) :
    String.ofList (layout 0 (ls.map (Prod.mk 0))) = String.join (ls.map (·.text)) := by
  induction ls with
  | nil => rfl
  | cons l ls ih =>
    rw [List.map_cons, layout, List.replicate_zero, List.nil_append, String.ofList_append, ih,
      String.ofList_toList, List.map_cons, String.join_cons]

/-- The text of an expression is cut into its tokens. -/
theorem Writable.exists_scan (h : e.Writable) :
    ∃ ts, scan .symbolic e.text = .ok ts ∧ ts.map Token.lexeme = e.tokens.map Token.lexeme := by
  let ps : List (Nat × Lexeme) := (e.tokens.map Token.lexeme).map (Prod.mk 0)
  have hsnd : ps.map Prod.snd = e.tokens.map Token.lexeme := by
    rw [List.map_map]
    exact List.map_id _
  have hwritten : ∀ p ∈ ps, p.2.WellWritten := by
    intro p hp
    obtain ⟨l, hl, rfl⟩ := List.mem_map.mp hp
    obtain ⟨t, ht, rfl⟩ := List.mem_map.mp hl
    exact h.texts t ht
  have hseparated : Separated ps := Printing.separated_of_isChain (hsnd ▸ h.kinds.isChain_lexemes)
  have htext : String.ofList (layout 0 ps) = e.text := by
    rw [layout_map_zero, text_eq_join_tokens, List.map_map]
    rfl
  refine ⟨placed 0 ps, ?_, ?_⟩
  · rw [← htext]
    exact scan_layout hwritten hseparated 0
  · rw [map_lexeme_placed, hsnd]

/-- Expressions with the same tokens, but for their places, have the same text. -/
theorem text_eq_of_lexemes {e' : Expr}
    (h : e'.tokens.map Token.lexeme = e.tokens.map Token.lexeme) : e'.text = e.text := by
  have htexts := congrArg (List.map Lexeme.text) h
  rw [List.map_map, List.map_map] at htexts
  rw [text_eq_join_tokens, text_eq_join_tokens]
  exact congrArg String.join htexts

/-- And the same leaves. -/
theorem WellKinded.leaves_eq_of_lexemes {e' : Expr} (hkinds : e.WellKinded)
    (hkinds' : e'.WellKinded) (h : e'.tokens.map Token.lexeme = e.tokens.map Token.lexeme) :
    e'.leaves.map Token.lexeme = e.leaves.map Token.lexeme := by
  have hfilter := congrArg (List.filter fun l : Lexeme => l.kind.isOperand) h
  rw [List.filter_map, List.filter_map] at hfilter
  rw [hkinds.leaves_eq, hkinds'.leaves_eq]
  exact hfilter

end Expr

/-- The text of an expression that can be written is the source of a formula, which
has the same text and the same leaves.  It is the same expression, but for the
places of its tokens, exactly when the expression needs no brackets. -/
theorem ofSource_text {e : Expr} (he : e.Writable) :
    ∃ f, Formula.ofSource .symbolic e.text = .ok f ∧ f.root.text = e.text ∧
      f.root.leaves.map Token.lexeme = e.leaves.map Token.lexeme ∧
      (f.root.unplaced = e.unplaced ↔ e.NeedsNoBrackets) := by
  obtain ⟨ts, hscan, hlexemes⟩ := he.exists_scan
  obtain ⟨root, hphrase⟩ := he.kinds.exists_sum hlexemes
  obtain ⟨f, hts, rfl⟩ := hphrase.exists_formula
  have hplain : ∀ t ∈ ts, t.kind.isBracket = false := by
    intro t ht
    have hmem : t.lexeme ∈ e.tokens.map Token.lexeme := hlexemes ▸ List.mem_map_of_mem ht
    obtain ⟨u, hu, htu⟩ := List.mem_map.mp hmem
    rw [← (Lexeme.mk.inj htu).1]
    exact he.kinds.isBracket u hu
  have htokens : f.root.tokens = ts := by
    rw [hphrase.tokens_eq, unbracketed, List.filter_eq_self]
    intro t ht
    rw [hplain t ht]
    rfl
  rw [← htokens] at hlexemes
  refine ⟨f, ofSource_eq_ok_iff.mpr ⟨ts, hscan, hts⟩, Expr.text_eq_of_lexemes hlexemes,
    he.kinds.leaves_eq_of_lexemes (wellKinded_of_ofTokens hts) hlexemes, ?_⟩
  constructor
  · intro hsame
    rw [← Expr.needsNoBrackets_unplaced, ← hsame, Expr.needsNoBrackets_unplaced]
    exact (hphrase.needsNoBrackets hplain).1
  · intro hnone
    obtain ⟨e', hunplaced, hphrase'⟩ :=
      (hnone.printing he.kinds).exists_phrase he (htokens ▸ hlexemes)
    rw [hphrase.unique (hphrase' .sum fun _ => he.kinds.precedence_pos), hunplaced]

/-- Two expressions have the text `1+x*.5`, and the one that needs no brackets is
the one that is read. -/
theorem ofSource_text_regrouped :
    let plus : Token := .detached (.operator .add) "+"
    let times : Token := .detached (.operator .mul) "*"
    let one : Expr := .ofToken (.detached .number "1")
    let x : Expr := .ofToken (.detached .name "x")
    let half : Expr := .ofToken (.detached .number ".5")
    let sum := Expr.ofOperands plus one (.ofOperands times x half)
    let product := Expr.ofOperands times (.ofOperands plus one x) half
    sum.Writable ∧ product.Writable ∧ sum.text = "1+x*.5" ∧ product.text = "1+x*.5" ∧
      ∃ f, Formula.ofSource .symbolic "1+x*.5" = .ok f ∧ f.root.unplaced = sum ∧
        f.root.unplaced ≠ product := by
  intro plus times one x half sum product
  -- Both expressions have these tokens.
  have hwritten : ∀ t ∈ [.detached .number "1", plus, .detached .name "x", times,
      .detached .number ".5"], t.lexeme.WellWritten := by decide
  have hsum : sum.Writable := by
    refine ⟨.ofOperands _ (.ofToken _) (.ofOperands _ (.ofToken _) (.ofToken _)), ?_, hwritten⟩
    exact ⟨⟨.add, rfl⟩, rfl, ⟨.mul, rfl⟩, rfl, rfl⟩
  have hproduct : product.Writable := by
    refine ⟨.ofOperands _ (.ofOperands _ (.ofToken _) (.ofToken _)) (.ofToken _), ?_, hwritten⟩
    exact ⟨⟨.mul, rfl⟩, ⟨⟨.add, rfl⟩, rfl, rfl⟩, rfl⟩
  have htext : sum.text = "1+x*.5" := rfl
  have htext' : product.text = "1+x*.5" := rfl
  obtain ⟨f, hf, -, -, hsame⟩ := ofSource_text hsum
  obtain ⟨g, hg, -, -, hsame'⟩ := ofSource_text hproduct
  rw [htext] at hf
  rw [htext', hf] at hg
  obtain rfl : f = g := Except.ok.inj hg
  refine ⟨hsum, hproduct, htext, htext', f, hf, hsame.mpr ?_, fun hequal => ?_⟩
  · refine Expr.needsNoBrackets_join.mpr ⟨?_, Expr.needsNoBrackets_leaf _ _,
      Expr.needsNoBrackets_join.mpr ⟨?_, Expr.needsNoBrackets_leaf _ _,
        Expr.needsNoBrackets_leaf _ _⟩⟩
    · rintro _ ⟨⟩
      refine ⟨nofun, ?_⟩
      rintro _ ⟨⟩
      decide
    · exact fun _ _ => ⟨nofun, nofun⟩
  · have hloose := ((Expr.needsNoBrackets_join.mp (hsame'.mp hequal)).1 2 rfl).1 1 rfl
    exact absurd hloose (by decide)

end Calculator
