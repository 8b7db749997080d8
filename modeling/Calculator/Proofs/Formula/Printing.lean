import Calculator.Proofs.Expr.Computation
import Calculator.Proofs.Formula.Conservation
import Calculator.Proofs.Formula.Grammar
import Calculator.Proofs.Formula.Lifecycle
import Calculator.Proofs.Token.Layout

/-!
# Expressions are printed and read back

`Printing` says what the infix printings of an expression are.  An operand is in
brackets at least where its operator binds too loosely for its place, and any
part may be in more brackets than it needs.

A printing is read as the expression that it prints.  `Printing.exists_phrase`
finds the expression in the grammar of `Calculator.Proofs.Formula.Grammar`:
what is not in brackets binds at least as tightly as its place asks for.
Since no two operands of a printing are neighbours, the blanks between its
lexemes are free (`Printing.separated`), and so `scan_layout` gives its tokens.

`ofSource_printing` puts this together for sources.  The expression that is read
back is the one that was printed, but for the places of its tokens.
-/

namespace Calculator

/-- How tightly the topmost operator of an expression binds. -/
def Expr.precedence? : Expr → Option Nat
  | .leaf .. => none
  | .join token _ _ _ => token.kind.precedence?

/-- Neighbours that are not both operands. -/
def Lexeme.Apart (l m : Lexeme) : Prop := l.kind.isOperand = true → m.kind.isOperand = false

/-- The infix printings of an expression.  The flag says whether there are
brackets around it. -/
inductive Printing : Bool → Expr → List Lexeme → Prop
  | leaf (t : Token) (closed : Bool) : Printing false (.leaf t closed) [t.lexeme]
  | join {t : Token} {op : Operation} {left right : Expr} {closed : Bool}
      {enclosedLeft enclosedRight : Bool} {ls rs : List Lexeme} (hk : t.kind = .operator op)
      (hleft : Printing enclosedLeft left ls) (hright : Printing enclosedRight right rs)
      (looseLeft : ∀ p ∈ left.precedence?, p < op.precedence → enclosedLeft = true)
      (looseRight : ∀ p ∈ right.precedence?, p ≤ op.precedence → enclosedRight = true) :
      Printing false (.join t left right closed) (ls ++ t.lexeme :: rs)
  | enclose {enclosed : Bool} {e : Expr} {ls : List Lexeme} (h : Printing enclosed e ls) :
      Printing true e (⟨.opening, "("⟩ :: (ls ++ [⟨.closing, ")"⟩]))

/-- An expression that can be written: its tokens are of the right kinds, and
written as their kinds are. -/
structure Expr.Writable (e : Expr) : Prop where
  built : e.Built
  kinds : e.WellKinded
  texts : ∀ t ∈ e.tokens, t.lexeme.WellWritten

/-! ## Printings in the grammar -/

namespace Phrase

variable {level : PhraseLevel} {ts us : List Token} {e left right : Expr} {t : Token}

/-- A factor is a phrase of every level. -/
theorem of_factor (h : Phrase .factor ts e) (level : PhraseLevel) : Phrase level ts e := by
  cases level with
  | sum => exact .ofProduct (.ofFactor h)
  | product => exact .ofFactor h
  | factor => exact h

/-- An operator makes phrases of the levels that it is tight enough for.  Its
right operand needs to be tighter than itself. -/
theorem operation {op : Operation} (hk : t.kind = .operator op)
    (hleft : ∀ level : PhraseLevel, level.threshold ≤ op.precedence → Phrase level ts left)
    (hright : ∀ level : PhraseLevel, level.threshold ≤ op.precedence + 1 → Phrase level us right)
    (hlevel : level.threshold ≤ op.precedence) :
    Phrase level (ts ++ t :: us) (.ofOperands t left right) := by
  cases op with
  | add | sub =>
    cases level with
    | sum => exact .sum (by decide) hk (hleft .sum hlevel) (hright .product (Nat.le_refl 2))
    | product | factor => exact absurd hlevel (by decide)
  | mul | div =>
    have hproduct : Phrase .product (ts ++ t :: us) (.ofOperands t left right) :=
      .product (by decide) hk (hleft .product (Nat.le_refl 2)) (hright .factor (Nat.le_refl 3))
    cases level with
    | sum => exact .ofProduct hproduct
    | product => exact hproduct
    | factor => exact absurd hlevel (by decide)

end Phrase

theorem Token.unplaced_eq {t u : Token} (h : t.lexeme = u.lexeme) : t.unplaced = u.unplaced := by
  obtain ⟨hkind, htext⟩ := Lexeme.mk.inj h
  rw [unplaced, unplaced, hkind, htext]

namespace Expr

variable {t : Token} {left right : Expr} {closed : Bool}

theorem Writable.operands (h : (join t left right closed).Writable) :
    left.Writable ∧ right.Writable := by
  obtain ⟨-, hleft, hright⟩ := h.built.join_eq
  obtain ⟨-, hkleft, hkright⟩ := h.kinds
  refine ⟨⟨hleft, hkleft, fun u hu => ?_⟩, ⟨hright, hkright, fun u hu => ?_⟩⟩
  · exact h.texts u (List.mem_append_left _ hu)
  · exact h.texts u (List.mem_append_right _ (List.mem_cons_of_mem _ hu))

/-- Every operator is tight enough for a sum. -/
theorem WellKinded.precedence_pos {e : Expr} (h : e.WellKinded) : ∀ p ∈ e.precedence?, 1 ≤ p := by
  cases e with
  | leaf => exact nofun
  | join token left right closed =>
    obtain ⟨⟨op, hop⟩, -⟩ := h
    intro p hp
    rw [precedence?, hop] at hp
    obtain rfl : op.precedence = p := Option.some.inj hp
    cases op <;> decide

end Expr

namespace Printing

variable {enclosed : Bool} {e : Expr} {ls : List Lexeme} {ts : List Token}

/-- Tokens that are printed like an expression are a phrase for it, of every
level that the brackets or the topmost operator allow. -/
theorem exists_phrase (h : Printing enclosed e ls) (he : e.Writable)
    (hts : ts.map Token.lexeme = ls) :
    ∃ e' : Expr, e'.unplaced = e.unplaced ∧ ∀ level : PhraseLevel,
      (enclosed = false → ∀ p ∈ e.precedence?, level.threshold ≤ p) → Phrase level ts e' := by
  -- The printed tree has its own tokens.  The phrase is made of those in `ts`,
  -- which have other places.
  induction h generalizing ts with
  | leaf t closed =>
    obtain ⟨u, rfl, hu⟩ := List.map_eq_singleton_iff.mp hts
    have hoperand : u.kind.isOperand = true := by
      rw [(Lexeme.mk.inj hu).1]
      exact he.kinds
    refine ⟨.ofToken u, ?_, fun level _ => (Phrase.operand hoperand).of_factor level⟩
    rw [he.built.leaf_eq, Expr.unplaced_ofToken, Expr.unplaced_ofToken, Token.unplaced_eq hu]
  | @join t op left right closed enclosedLeft enclosedRight ls rs hk _ _ looseLeft looseRight
      ihl ihr =>
    obtain ⟨hleft, hright⟩ := he.operands
    obtain ⟨us, vs, rfl, hus, hvs⟩ := List.map_eq_append_iff.mp hts
    obtain ⟨u, vs, rfl, hu, hvs⟩ := List.map_eq_cons_iff.mp hvs
    obtain ⟨left', hleft', hphraseLeft⟩ := ihl hleft hus
    obtain ⟨right', hright', hphraseRight⟩ := ihr hright hvs
    have hku : u.kind = .operator op := (Lexeme.mk.inj hu).1.trans hk
    have tightLeft (hopen : enclosedLeft = false) : ∀ p ∈ left.precedence?, op.precedence ≤ p := by
      intro p hp
      by_contra hlt
      rw [looseLeft p hp (Nat.lt_of_not_le hlt)] at hopen
      cases hopen
    have tightRight (hopen : enclosedRight = false) :
        ∀ p ∈ right.precedence?, op.precedence + 1 ≤ p := by
      intro p hp
      by_contra hle
      rw [looseRight p hp (Nat.le_of_not_lt hle)] at hopen
      cases hopen
    refine ⟨.ofOperands u left' right', ?_, fun level hlevel => ?_⟩
    · rw [he.built.join_eq.1, Expr.unplaced_ofOperands, Expr.unplaced_ofOperands, hleft', hright',
        Token.unplaced_eq hu]
    · have hprec : level.threshold ≤ op.precedence :=
        hlevel rfl op.precedence (by rw [Expr.precedence?, hk]; rfl)
      refine Phrase.operation hku (fun l hl => ?_) (fun r hr => ?_) hprec
      · exact hphraseLeft l fun hopen p hp => hl.trans (tightLeft hopen p hp)
      · exact hphraseRight r fun hopen p hp => hr.trans (tightRight hopen p hp)
  | enclose _ ih =>
    obtain ⟨o, rest, rfl, ho, hrest⟩ := List.map_eq_cons_iff.mp hts
    obtain ⟨us, vs, rfl, hus, hvs⟩ := List.map_eq_append_iff.mp hrest
    obtain ⟨c, rfl, hc⟩ := List.map_eq_singleton_iff.mp hvs
    obtain ⟨e', he', hphrase⟩ := ih he hus
    have hsum := hphrase .sum fun _ => he.kinds.precedence_pos
    refine ⟨e', he', fun level _ => ?_⟩
    exact (Phrase.enclosed (Lexeme.mk.inj ho).1 (Lexeme.mk.inj hc).1 hsum).of_factor level

/-! ## Printings as sources -/

/-- The lexemes of a printing are written as their kinds are. -/
theorem wellWritten (h : Printing enclosed e ls) (he : e.Writable) : ∀ l ∈ ls, l.WellWritten := by
  induction h with
  | leaf t closed =>
    intro l hl
    rw [List.mem_singleton.mp hl]
    exact he.texts t List.mem_cons_self
  | @join t op left right closed _ _ ls rs _ _ _ _ _ ihl ihr =>
    intro l hl
    rcases List.mem_append.mp hl with hl | hl
    · exact ihl he.operands.1 l hl
    · rcases List.mem_cons.mp hl with rfl | hl
      · exact he.texts t (List.mem_append_right _ List.mem_cons_self)
      · exact ihr he.operands.2 l hl
  | enclose _ ih =>
    intro l hl
    rcases List.mem_cons.mp hl with rfl | hl
    · rfl
    · rcases List.mem_append.mp hl with hl | hl
      · exact ih he l hl
      · rw [List.mem_singleton.mp hl]
        rfl

/-- What is no operand may stand anywhere between operands. -/
theorem isChain_insert {l : Lexeme} {rs : List Lexeme} (hl : l.kind.isOperand = false)
    (hls : ls.IsChain Lexeme.Apart) (hrs : rs.IsChain Lexeme.Apart) :
    (ls ++ l :: rs).IsChain Lexeme.Apart := by
  refine List.isChain_append.mpr ⟨hls, List.isChain_cons.mpr ⟨?_, hrs⟩, ?_⟩
  · intro m _ hoperand
    rw [hl] at hoperand
    cases hoperand
  · intro a _ b hb _
    obtain rfl : l = b := by simpa using hb
    exact hl

/-- No two operands of a printing are neighbours. -/
theorem isChain (h : Printing enclosed e ls) : ls.IsChain Lexeme.Apart := by
  induction h with
  | leaf t closed => exact .singleton _
  | join hk _ _ _ _ ihl ihr => exact isChain_insert (by rw [Token.lexeme, hk]; rfl) ihl ihr
  | enclose _ ih =>
    refine List.isChain_cons.mpr ⟨?_, isChain_insert rfl ih .nil⟩
    intro m _ hoperand
    cases hoperand

/-- Lexemes of which no two neighbours are operands need no blanks. -/
theorem separated_of_isChain {ps : List (Nat × Lexeme)}
    (h : (ps.map Prod.snd).IsChain Lexeme.Apart) : Separated ps := by
  refine ((List.isChain_map Prod.snd).mp h).imp ?_
  intro p q hpq hoperand hkind
  have hnext := hpq hoperand
  rw [← hkind, hoperand] at hnext
  cases hnext

theorem separated {ps : List (Nat × Lexeme)} (h : Printing enclosed e (ps.map Prod.snd)) :
    Separated ps :=
  separated_of_isChain h.isChain

end Printing

/-! ## Reading printings back -/

namespace Expr

variable {e : Expr}

theorem WellKinded.isOperand (h : e.WellKinded) : ∀ t ∈ e.leaves, t.kind.isOperand = true := by
  induction e with
  | leaf token closed =>
    intro t ht
    rw [List.mem_singleton.mp ht]
    exact h
  | join token left right closed ihl ihr =>
    intro t ht
    rcases List.mem_append.mp ht with ht | ht
    · exact ihl h.2.1 t ht
    · exact ihr h.2.2 t ht

theorem Writable.sound (h : e.Writable) : e.Sound := by
  refine ⟨h.built, h.kinds, ?_⟩
  intro t ht hk
  have htext := h.texts t (mem_tokens.mpr (.inl ht))
  have hoperand := h.kinds.isOperand t ht
  obtain ⟨kind, text, span⟩ := t
  cases kind with
  | number =>
    rw [← text.ofList_toList]
    exact IsNumeral.exists_read htext
  | name => exact absurd rfl hk
  | operator op | opening | closing => cases hoperand

/-- An expression without names computes a number. -/
theorem Sound.exists_computes (h : e.Sound) (hnone : ∀ t ∈ e.leaves, t.kind ≠ .name) :
    ∃ x, e.Computes x := by
  rcases h.evaluate_eq with ⟨-, x, hx⟩ | ⟨t, rest, hopen, -⟩
  · exact ⟨x, computes_iff_evaluate.mpr hx⟩
  · have ht : t ∈ e.openLeaves := hopen ▸ List.mem_cons_self
    obtain ⟨hleaf, hk⟩ := List.mem_filter.mp ht
    exact absurd (of_decide_eq_true hk) (hnone t hleaf)

end Expr

/-- The source that prints an expression is read as that expression, whatever
brackets it has beyond those it needs and wherever it has blanks.  The names of
the formula are those of the expression, and if there are none, its value is
what the expression computes. -/
theorem ofSource_printing {e : Expr} {enclosed : Bool} {ps : List (Nat × Lexeme)}
    (he : e.Writable) (hp : Printing enclosed e (ps.map Prod.snd)) (trailing : Nat) :
    ∃ f, Formula.ofSource .symbolic (String.ofList (layout trailing ps)) = .ok f ∧
      f.root.unplaced = e.unplaced ∧
      (∀ name, name ∈ f.names ↔ ∃ t ∈ e.leaves, t.kind = .name ∧ t.text = name) ∧
      ((∀ t ∈ e.leaves, t.kind ≠ .name) →
        ∃ x, e.Computes x ∧ evaluate (String.ofList (layout trailing ps)) = .ok x) := by
  obtain ⟨e', hunplaced, hphrase⟩ := hp.exists_phrase he (map_lexeme_placed 0 ps)
  obtain ⟨f, hts, rfl⟩ := (hphrase .sum fun _ => he.kinds.precedence_pos).exists_formula
  have hwritten : ∀ p ∈ ps, p.2.WellWritten :=
    fun p hmem => hp.wellWritten he p.2 (List.mem_map_of_mem hmem)
  have hsource : Formula.ofSource .symbolic (String.ofList (layout trailing ps)) = .ok f :=
    ofSource_eq_ok_iff.mpr ⟨_, scan_layout hwritten hp.separated trailing, hts⟩
  refine ⟨f, hsource, hunplaced, fun name => ?_, fun hnone => ?_⟩
  · rw [mem_names_iff_leaves hts, ← Expr.exists_name_unplaced, hunplaced,
      Expr.exists_name_unplaced]
  · obtain ⟨x, hx⟩ := he.sound.exists_computes hnone
    have hroot : f.root.Computes x := by
      rw [← Expr.computes_unplaced, hunplaced, Expr.computes_unplaced]
      exact hx
    refine ⟨x, hx, ?_⟩
    rw [evaluate, hsource]
    show f.root.evaluate.mapError Error.evaluation = .ok x
    rw [Expr.computes_iff_evaluate.mp hroot]
    rfl

/-- `(20 - (2 + 10 / 2)) * .5` needs brackets around the difference and the sum,
none around the quotient, and may have more around a number. -/
theorem ofSource_printing_mixed :
    let number (text : String) : Token := .detached .number text
    let operator (op : Operation) : Token := .detached (.operator op) op.symbol
    let opening : Lexeme := ⟨.opening, "("⟩
    let closing : Lexeme := ⟨.closing, ")"⟩
    let quotient := Expr.ofOperands (operator .div) (.ofToken (number "10")) (.ofToken (number "2"))
    let sum := Expr.ofOperands (operator .add) (.ofToken (number "2")) quotient
    let difference := Expr.ofOperands (operator .sub) (.ofToken (number "20")) sum
    let e := Expr.ofOperands (operator .mul) difference (.ofToken (number ".5"))
    let ps : List (Nat × Lexeme) := [(1, opening), (0, opening), (0, (number "20").lexeme),
      (0, closing), (0, (operator .sub).lexeme), (1, opening), (0, (number "2").lexeme),
      (1, (operator .add).lexeme), (0, (number "10").lexeme), (0, (operator .div).lexeme),
      (0, (number "2").lexeme), (0, closing), (0, closing), (1, (operator .mul).lexeme),
      (1, (number ".5").lexeme)]
    String.ofList (layout 1 ps) = " ((20)- (2 +10/2)) * .5 " ∧ e.Writable ∧
      Printing false e (ps.map Prod.snd) ∧
      ∃ f, Formula.ofSource .symbolic " ((20)- (2 +10/2)) * .5 " = .ok f ∧ f.root.unplaced = e ∧
        (∀ name, name ∉ f.names) ∧ e.Computes 6.5 ∧
        evaluate " ((20)- (2 +10/2)) * .5 " = .ok 6.5 := by
  intro number operator opening closing quotient sum difference e ps
  have hsource : String.ofList (layout 1 ps) = " ((20)- (2 +10/2)) * .5 " := by decide
  have hwritable : e.Writable := by
    have hsum : sum.Built :=
      .ofOperands _ (.ofToken _) (.ofOperands _ (.ofToken _) (.ofToken _))
    have hbuilt : e.Built := .ofOperands _ (.ofOperands _ (.ofToken _) hsum) (.ofToken _)
    have hkinds : e.WellKinded :=
      ⟨⟨.mul, rfl⟩, ⟨⟨.sub, rfl⟩, rfl, ⟨.add, rfl⟩, rfl, ⟨.div, rfl⟩, rfl, rfl⟩, rfl⟩
    exact ⟨hbuilt, hkinds, by decide⟩
  have hp : Printing false e (ps.map Prod.snd) := by
    have hquotient : Printing false quotient
        ([(number "10").lexeme] ++ (operator .div).lexeme :: [(number "2").lexeme]) :=
      .join rfl (.leaf _ _) (.leaf _ _) nofun nofun
    have hsum : Printing false sum ([(number "2").lexeme] ++ (operator .add).lexeme :: _) :=
      .join rfl (.leaf _ _) hquotient nofun (by decide)
    have hdifference : Printing false difference
        ([opening, (number "20").lexeme, closing] ++ (operator .sub).lexeme :: _) :=
      .join rfl (.enclose (.leaf _ _)) hsum.enclose nofun fun _ _ _ => rfl
    exact .join rfl hdifference.enclose (.leaf _ _) (fun _ _ _ => rfl) nofun
  have hcomputes : e.Computes 6.5 := by
    have hleaf {text : String} {x : Float} (hread : Numeral.read? text = some x) :
        (Expr.ofToken (number text)).Computes x := .leaf nofun hread
    have hquotient : quotient.Computes (10 / 2) :=
      .div rfl (hleaf (by decide +kernel)) (hleaf (by decide +kernel))
    have hdifference : difference.Computes (20 - (2 + 10 / 2)) :=
      .sub rfl (hleaf (by decide +kernel)) (.add rfl (hleaf (by decide +kernel)) hquotient)
    have hproduct : e.Computes ((20 - (2 + 10 / 2)) * 0.5) :=
      .mul rfl hdifference (hleaf (by decide +kernel))
    have hvalue : ((20 - (2 + 10 / 2)) * 0.5 : Float) = 6.5 := by decide +kernel
    rwa [hvalue] at hproduct
  obtain ⟨f, hf, hroot, hnames, hvalue⟩ := ofSource_printing hwritable hp 1
  rw [hsource] at hf hvalue
  have hnone : ∀ t ∈ e.leaves, t.kind ≠ .name := by decide
  obtain ⟨x, hx, heval⟩ := hvalue hnone
  obtain rfl := hx.unique hcomputes
  refine ⟨hsource, hwritable, hp, f, hf, hroot, fun name hname => ?_, hcomputes, heval⟩
  obtain ⟨t, ht, hk, -⟩ := (hnames name).mp hname
  exact hnone t ht hk

end Calculator
