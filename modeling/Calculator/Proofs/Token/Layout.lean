import Calculator.Proofs.Token.Scanning

/-!
# Lexemes with blanks between them

A lexeme is a token without a place: a kind and a text.  `layout` writes a list
of lexemes out, with any number of blanks before, between and after them, and
`placed` are the tokens that stand there then.

Two numbers next to each other need a blank between them, and so do two names;
all other neighbours may touch (`Separated`).  `scan_layout` says that what is
laid out in this way is scanned back: `pieces_layout` cuts the text where the
lexemes end, and since the text of each lexeme suits its kind
(`Lexeme.WellWritten`) there are no faults in it.  `scan_lexemes` reads the
places of the tokens off the layout: what comes before a lexeme is a layout of
the lexemes before it, and the span begins at its length in bytes.
-/

namespace Calculator

open String (utf8Len)

/-- A token that has no place. -/
structure Lexeme where
  kind : Kind
  text : String
deriving DecidableEq

/-- What is left of a token without its place. -/
def Token.lexeme (t : Token) : Lexeme := ⟨t.kind, t.text⟩

/-- The text is one that the kind is written with: a numeral, a word of letters,
or the symbol of an operator or a bracket. -/
def Lexeme.WellWritten (l : Lexeme) : Prop :=
  match l.kind with
  | .number => IsNumeral l.text.toList
  | .name => l.text.toList ≠ [] ∧ ∀ c ∈ l.text.toList, c.isAlpha = true
  | kind => kind.symbol? = some l.text

instance : DecidablePred Lexeme.WellWritten
  | ⟨.number, text⟩ => inferInstanceAs (Decidable (IsNumeral text.toList))
  | ⟨.name, text⟩ =>
    decidable_of_iff (text.toList ≠ [] ∧ text.toList.all Char.isAlpha = true)
      (and_congr_right' List.all_eq_true)
  | ⟨.operator op, text⟩ => inferInstanceAs (Decidable (some op.symbol = some text))
  | ⟨.opening, text⟩ => inferInstanceAs (Decidable (some "(" = some text))
  | ⟨.closing, text⟩ => inferInstanceAs (Decidable (some ")" = some text))

/-- The lexemes in their order, each after as many blanks as are given with it,
and the trailing blanks. -/
def layout (trailing : Nat) : List (Nat × Lexeme) → List Char
  | [] => List.replicate trailing ' '
  | (gap, l) :: rest => List.replicate gap ' ' ++ (l.text.toList ++ layout trailing rest)

/-- The tokens of a layout that begins at `start`. -/
def placed (start : Nat) : List (Nat × Lexeme) → List Token
  | [] => []
  | (gap, l) :: rest =>
    ⟨l.kind, l.text, .ofOffsets (start + gap) (start + gap + utf8Len l.text.toList)⟩ ::
      placed (start + gap + utf8Len l.text.toList) rest

/-- There is a blank between neighbours that would run together. -/
def Separated (ps : List (Nat × Lexeme)) : Prop :=
  ps.IsChain fun p q => p.2.kind.isOperand = true → p.2.kind = q.2.kind → 0 < q.1

theorem map_lexeme_placed (start : Nat) (ps : List (Nat × Lexeme)) :
    (placed start ps).map Token.lexeme = ps.map Prod.snd := by
  induction ps generalizing start with
  | nil => rfl
  | cons p ps ih => rw [placed, List.map_cons, List.map_cons, ih, Token.lexeme]

/-! ## The shapes of lexemes -/

/-- What the text of a lexeme is made of. -/
inductive Lexeme.Shape (l : Lexeme) : Prop
  | run {sort : RunSort} (hkind : l.kind = sort.kind) (hne : l.text.toList ≠ [])
      (h : ∀ c ∈ l.text.toList, sort.has c = true) : Shape l
  | mark {c : Char} (hc : c ∈ separators) (htext : l.text.toList = [c])
      (hkind : kindOfPiece? [c] = some l.kind) : Shape l

theorem IsNumeral.inside {text : List Char} (h : IsNumeral text) :
    ∀ c ∈ text, isNumberPart c = true := by
  cases h with
  | digits hne hds => exact fun c hc => isNumberPart_of_isDigit (hds c hc)
  | decimal hne hw hf => exact (Run.Gathers.decimal hw hf).inside

theorem IsNumeral.ne_nil {text : List Char} (h : IsNumeral text) : text ≠ [] := by
  cases h with
  | digits hne _ => exact hne
  | decimal => simp

section

variable {l : Lexeme} {sort : RunSort} {rest : List Char} {trailing : Nat}
  {ps : List (Nat × Lexeme)}

theorem Lexeme.WellWritten.shape (h : l.WellWritten) : l.Shape := by
  obtain ⟨kind, text⟩ := l
  cases kind with
  | number => exact @Shape.run _ .number rfl (IsNumeral.ne_nil h) (IsNumeral.inside h)
  | name =>
    exact @Shape.run _ .name rfl h.1 fun c hc => isNamePart_of_isAlpha (h.2 c hc)
  | operator op =>
    obtain rfl : op.symbol = text := Option.some.inj h
    cases op <;> exact .mark (by decide) rfl rfl
  | opening =>
    obtain rfl : "(" = text := Option.some.inj h
    exact .mark (by decide) rfl rfl
  | closing =>
    obtain rfl : ")" = text := Option.some.inj h
    exact .mark (by decide) rfl rfl

theorem Lexeme.Shape.ne_nil (h : l.Shape) : l.text.toList ≠ [] := by
  cases h with
  | run _ hne _ => exact hne
  | mark _ htext _ => simp [htext]

theorem Lexeme.Shape.kindOfPiece?_eq (h : l.Shape) :
    kindOfPiece? l.text.toList = some l.kind := by
  cases h with
  | run hkind hne h => rw [kindOfPiece?_of_sort hne h, hkind]
  | mark _ htext hkind => rw [htext, hkind]

/-- A lexeme that has a character of a sort is of the sort's kind. -/
theorem Lexeme.Shape.kind_eq (h : l.Shape) {c : Char} (hc : c ∈ l.text.toList)
    (hsort : sort.has c = true) : l.kind = sort.kind := by
  cases h with
  | run hkind _ h => rw [hkind, RunSort.eq_of_has (h c hc) hsort]
  | mark hmark htext _ =>
    rw [htext, List.mem_singleton] at hc
    rw [hc, eq_false_of_mem_separators hmark sort] at hsort
    cases hsort

theorem Lexeme.Shape.allowed (h : l.Shape) {c : Char} (hc : c ∈ l.text.toList) :
    Dialect.symbolic.Allows c := by
  cases h with
  | @run sort _ _ h =>
    cases sort with
    | number => exact .inl (h c hc)
    | name => exact .inr (.inr ⟨rfl, h c hc⟩)
  | mark hmark htext _ =>
    rw [htext, List.mem_singleton] at hc
    exact .inr (.inl (hc ▸ hmark))

/-! ## Cutting a layout -/

/-- The pieces of a layout. -/
def layoutPieces (trailing : Nat) : List (Nat × Lexeme) → List (List Char)
  | [] => List.replicate trailing [' ']
  | (gap, l) :: rest => List.replicate gap [' '] ++ l.text.toList :: layoutPieces trailing rest

/-- A separator in front is a piece. -/
theorem pieces_cons {c : Char} (hc : c ∈ separators) (cs : List Char) :
    pieces (c :: cs) = [c] :: pieces cs := by
  have hends : ∀ a ∈ [c].getLast?, ∀ b ∈ cs.head?, inOneRun a b = false := by
    intro a ha b _
    obtain rfl : c = a := by simpa using ha
    exact inOneRun_of_mem_separators hc b
  exact pieces_append hends

theorem pieces_blanks_append (n : Nat) (cs : List Char) :
    pieces (List.replicate n ' ' ++ cs) = List.replicate n [' '] ++ pieces cs := by
  induction n with
  | zero => rfl
  | succ n ih =>
    rw [List.replicate_succ, List.replicate_succ, List.cons_append, pieces_cons (by decide), ih,
      List.cons_append]

theorem pieces_lexeme_append (h : l.Shape)
    (hends : ∀ sort : RunSort, l.kind = sort.kind → ∀ c ∈ rest.head?, sort.has c = false) :
    pieces (l.text.toList ++ rest) = l.text.toList :: pieces rest := by
  cases h with
  | run hkind hne h => exact pieces_run_append hne h (hends _ hkind)
  | mark hc htext _ =>
    rw [htext, List.singleton_append]
    exact pieces_cons hc rest

/-- A layout goes on with no run, unless a lexeme of the same kind comes next
without a blank. -/
theorem head?_layout (hps : ∀ p ∈ ps, p.2.WellWritten)
    (hgap : ∀ p ∈ ps.head?, p.2.kind = sort.kind → 0 < p.1) :
    ∀ c ∈ (layout trailing ps).head?, sort.has c = false := by
  have hblank : ∀ (n : Nat) (cs : List Char), ∀ c ∈ (List.replicate (n + 1) ' ' ++ cs).head?,
      sort.has c = false := by
    intro n cs c hc
    obtain rfl : ' ' = c := by simpa [List.replicate_succ] using hc
    exact eq_false_of_mem_separators (by decide) sort
  match ps with
  | [] =>
    cases trailing with
    | zero => exact nofun
    | succ n =>
      rw [layout, ← List.append_nil (List.replicate (n + 1) ' ')]
      exact hblank n []
  | (gap + 1, l) :: rest => exact hblank gap _
  | (0, l) :: rest =>
    intro c hc
    have hshape := (hps (0, l) List.mem_cons_self).shape
    rw [layout, List.replicate_zero, List.nil_append,
      List.head?_append_of_ne_nil _ hshape.ne_nil] at hc
    refine Bool.eq_false_of_not_eq_true fun hsort => ?_
    have hkind := hshape.kind_eq (List.mem_of_mem_head? hc) hsort
    exact absurd (hgap (0, l) rfl hkind) (Nat.lt_irrefl 0)

theorem RunSort.isOperand_kind (sort : RunSort) : sort.kind.isOperand = true := by
  cases sort <;> rfl

theorem pieces_layout (hps : ∀ p ∈ ps, p.2.WellWritten) (hsep : Separated ps) :
    pieces (layout trailing ps) = layoutPieces trailing ps := by
  induction ps with
  | nil =>
    rw [layout, ← List.append_nil (List.replicate trailing ' '), pieces_blanks_append]
    exact List.append_nil _
  | cons p ps ih =>
    obtain ⟨gap, l⟩ := p
    obtain ⟨hnext, hrest⟩ := List.isChain_cons.mp hsep
    have hps' : ∀ p ∈ ps, p.2.WellWritten := fun p hp => hps p (List.mem_cons_of_mem _ hp)
    rw [layout, layoutPieces, pieces_blanks_append,
      pieces_lexeme_append (hps _ List.mem_cons_self).shape, ih hps' hrest]
    intro sort hsort
    refine head?_layout hps' fun q hq hkind => ?_
    exact hnext q hq (hsort ▸ sort.isOperand_kind) (hsort.trans hkind.symm)

theorem mem_layoutPieces {piece : List Char} (h : piece ∈ layoutPieces trailing ps) :
    piece = [' '] ∨ ∃ p ∈ ps, piece = p.2.text.toList := by
  induction ps with
  | nil => exact .inl (List.eq_of_mem_replicate h)
  | cons p ps ih =>
    rw [layoutPieces, List.mem_append, List.mem_cons] at h
    rcases h with h | rfl | h
    · exact .inl (List.eq_of_mem_replicate h)
    · exact .inr ⟨p, List.mem_cons_self, rfl⟩
    · rcases ih h with hblank | ⟨q, hq, htext⟩
      · exact .inl hblank
      · exact .inr ⟨q, List.mem_cons_of_mem _ hq, htext⟩

theorem tokensOfPieces_blanks (start n : Nat) (xs : List (List Char)) :
    tokensOfPieces start (List.replicate n [' '] ++ xs) = tokensOfPieces (start + n) xs := by
  induction n generalizing start with
  | zero => rfl
  | succ n ih =>
    rw [List.replicate_succ, List.cons_append, tokensOfPieces, ih]
    show tokensOfPieces (start + 1 + n) xs = _
    rw [Nat.add_assoc, Nat.add_comm 1 n]

theorem tokensOfPieces_layoutPieces (hps : ∀ p ∈ ps, p.2.WellWritten) (start : Nat) :
    tokensOfPieces start (layoutPieces trailing ps) = placed start ps := by
  induction ps generalizing start with
  | nil =>
    rw [layoutPieces, ← List.append_nil (List.replicate trailing [' ']), tokensOfPieces_blanks]
    rfl
  | cons p ps ih =>
    obtain ⟨gap, l⟩ := p
    have hkind := (hps _ List.mem_cons_self).shape.kindOfPiece?_eq
    rw [layoutPieces, tokensOfPieces_blanks, tokensOfPieces, tokenOfPiece?, hkind,
      ih fun p hp => hps p (List.mem_cons_of_mem _ hp), placed]
    simp

/-! ## Scanning a layout -/

/-- The runs of a layout are lexemes. -/
theorem exists_lexeme_of_run {pre run post : List Char} (hps : ∀ p ∈ ps, p.2.WellWritten)
    (hsep : Separated ps) (h : MaximalRun sort (layout trailing ps) pre run post) :
    ∃ l : Lexeme, l.WellWritten ∧ l.kind = sort.kind ∧ run = l.text.toList := by
  obtain ⟨hsort, before, after, hpieces, -⟩ := maximalRun_iff_pieces.mp h
  rw [pieces_layout hps hsep] at hpieces
  have hmem : run ∈ layoutPieces trailing ps := by simp [hpieces]
  rcases mem_layoutPieces hmem with rfl | ⟨p, hp, rfl⟩
  · have hblank := hsort ' ' List.mem_cons_self
    rw [eq_false_of_mem_separators (by decide) sort] at hblank
    cases hblank
  · obtain ⟨c, hc⟩ := List.exists_mem_of_ne_nil _ h.ne_nil
    exact ⟨p.2, hps p hp, (hps p hp).shape.kind_eq hc (hsort c hc), rfl⟩

theorem acceptable_layout (hps : ∀ p ∈ ps, p.2.WellWritten) (hsep : Separated ps) :
    Acceptable .symbolic (layout trailing ps) := by
  constructor
  · intro c hc
    rw [← flatten_pieces (layout trailing ps), pieces_layout hps hsep] at hc
    obtain ⟨piece, hpiece, hc⟩ := List.mem_flatten.mp hc
    rcases mem_layoutPieces hpiece with rfl | ⟨p, hp, rfl⟩
    · rw [List.mem_singleton.mp hc]
      exact .inr (.inl (by decide))
    · exact (hps p hp).shape.allowed hc
  · intro pre run post hrun
    obtain ⟨⟨kind, text⟩, hl, rfl, rfl⟩ := exists_lexeme_of_run hps hsep hrun
    exact hl
  · intro pre run post hrun hmem
    obtain ⟨⟨kind, text⟩, hl, rfl, rfl⟩ := exists_lexeme_of_run hps hsep hrun
    exact absurd (hl.2 '_' hmem) (by decide)

/-- Lexemes that are laid out are scanned back, each where it was put. -/
theorem scan_layout (hps : ∀ p ∈ ps, p.2.WellWritten) (hsep : Separated ps) (trailing : Nat) :
    scan .symbolic (String.ofList (layout trailing ps)) = .ok (placed 0 ps) := by
  rw [scan_of_acceptable, String.toList_ofList, cut, pieces_layout hps hsep,
    tokensOfPieces_layoutPieces hps]
  rw [String.toList_ofList]
  exact acceptable_layout hps hsep

/-! ## Where lexemes are found -/

/-- What is laid out before a lexeme, with the blanks in front of it, is a layout
of its own. -/
theorem layout_append (trailing gap : Nat) (l : Lexeme) (before after : List (Nat × Lexeme)) :
    layout trailing (before ++ (gap, l) :: after) =
      layout gap before ++ l.text.toList ++ layout trailing after := by
  induction before with
  | nil => simp [layout]
  | cons p before ih =>
    obtain ⟨gap', l'⟩ := p
    simp only [List.cons_append, layout, ih, List.append_assoc]

theorem length_placed (start : Nat) (ps : List (Nat × Lexeme)) :
    (placed start ps).length = ps.length := by
  rw [← List.length_map Token.lexeme, map_lexeme_placed, List.length_map]

theorem utf8Len_blanks (n : Nat) : utf8Len (List.replicate n ' ') = n := by
  induction n with
  | zero => rfl
  | succ n ih =>
    rw [List.replicate_succ, String.utf8Len_cons, ih]
    rfl

theorem placed_append (start gap : Nat) (l : Lexeme) (before after : List (Nat × Lexeme)) :
    ∃ rest, placed start (before ++ (gap, l) :: after) = placed start before ++
      ⟨l.kind, l.text, .ofOffsets (start + utf8Len (layout gap before))
        (start + utf8Len (layout gap before ++ l.text.toList))⟩ :: rest := by
  induction before generalizing start with
  | nil =>
    refine ⟨placed (start + gap + utf8Len l.text.toList) after, ?_⟩
    simp [placed, layout, utf8Len_blanks, Nat.add_assoc]
  | cons p before ih =>
    obtain ⟨gap', l'⟩ := p
    obtain ⟨rest, hrest⟩ := ih (start + gap' + utf8Len l'.text.toList)
    refine ⟨rest, ?_⟩
    rw [List.cons_append, placed, hrest, placed]
    simp [layout, utf8Len_blanks, Nat.add_assoc]

/-- Lexemes that are laid out are scanned back in their order, and the span of
each is where its text lies. -/
theorem scan_lexemes {ps : List (Nat × Lexeme)} (hps : ∀ p ∈ ps, p.2.WellWritten)
    (hsep : Separated ps) (trailing : Nat) :
    ∃ ts, scan .symbolic (String.ofList (layout trailing ps)) = .ok ts ∧
      ts.map Token.lexeme = ps.map Prod.snd ∧
      ∀ before gap l after, ps = before ++ (gap, l) :: after →
        layout trailing ps = layout gap before ++ l.text.toList ++ layout trailing after ∧
          (ts[before.length]?).map Token.span = some (.ofOffsets (utf8Len (layout gap before))
            (utf8Len (layout gap before ++ l.text.toList))) := by
  refine ⟨placed 0 ps, scan_layout hps hsep trailing, map_lexeme_placed 0 ps, ?_⟩
  rintro before gap l after rfl
  refine ⟨layout_append trailing gap l before after, ?_⟩
  obtain ⟨rest, hplaced⟩ := placed_append 0 gap l before after
  rw [hplaced, ← length_placed 0 before]
  simp

/-- A numeral, a word and a numeral that begins with its point may touch. -/
theorem scan_lexemes_touching :
    let ps : List (Nat × Lexeme) := [(0, ⟨.number, "12"⟩), (0, ⟨.name, "x"⟩),
      (0, ⟨.number, ".5"⟩), (0, ⟨.operator .sub, "-"⟩), (1, ⟨.name, "a"⟩), (2, ⟨.name, "b"⟩)]
    String.ofList (layout 1 ps) = "12x.5- a  b " ∧ (∀ p ∈ ps, p.2.WellWritten) ∧ Separated ps ∧
      ∃ ts, scan .symbolic "12x.5- a  b " = .ok ts ∧ ts.map Token.lexeme = ps.map Prod.snd ∧
        (ts[2]?).map Token.span = some ⟨3, 5⟩ := by
  intro ps
  have htext : String.ofList (layout 1 ps) = "12x.5- a  b " := by decide
  have hps : ∀ p ∈ ps, p.2.WellWritten := by decide
  have hsep : Separated ps := by simp [Separated, ps]
  obtain ⟨ts, hscan, hlexemes, hspans⟩ := scan_lexemes hps hsep 1
  rw [htext] at hscan
  have hplace : Span.ofOffsets (utf8Len (layout 0 (ps.take 2)))
      (utf8Len (layout 0 (ps.take 2) ++ ".5".toList)) = ⟨3, 5⟩ := by decide
  refine ⟨htext, hps, hsep, ts, hscan, hlexemes, ?_⟩
  rw [← hplace]
  exact (hspans (ps.take 2) 0 ⟨.number, ".5"⟩ (ps.drop 3) rfl).2

end

end Calculator
