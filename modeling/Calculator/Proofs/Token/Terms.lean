import Calculator.Proofs.Text.Delimited
import Calculator.Proofs.Token.Layout
import Calculator.Proofs.Token.Pieces
import Calculator.Proofs.Token.Places

/-!
# Whole terms and their tokens

A text is given its kind as a whole by `kindOfTerm`, which compares it with the
shapes of tokens, and cut into tokens by `scan`, which reads it character by
character.  This module says where the two differ.

* Every token has its own kind as a term (`kindOfTerm_of_mem_cut`).
* A term with a kind is one token as a source, unless it is a number with more
  than one point (`term_cases`).
* A number with more than one point fails as a source at the second point
  (`scan_of_secondPoint`).

`termsAgree` puts this together for both dialects and every text.
-/

namespace Calculator

open String (utf8Len)

/-! ## The shape of numbers -/

/-- Points, each with digits after it; possibly none. -/
inductive Fractions : List Char → Prop
  | nil : Fractions []
  | cons {ds rest : List Char} (hne : ds ≠ []) (h : ∀ c ∈ ds, c.isDigit = true)
      (hrest : Fractions rest) : Fractions ('.' :: (ds ++ rest))

/-- The two parts of a number that has more than one point: what is before the
second point, and the rest. -/
inductive SecondPoint : List Char → List Char → Prop
  | mk {whole first rest : List Char} (hw : ∀ c ∈ whole, c.isDigit = true) (hne : first ≠ [])
      (hf : ∀ c ∈ first, c.isDigit = true) (hrestne : rest ≠ []) (hrest : Fractions rest) :
      SecondPoint (whole ++ '.' :: first) rest

section

variable {dialect : Dialect} {text before rest source pre run post : List Char} {sort : RunSort}
  {c : Char} {kind : Kind} {t : Token} {term : String}

theorem Fractions.isNumberShapeFrom (h : Fractions rest) :
    Calculator.isNumberShapeFrom false rest = true := by
  induction h with
  | nil => rfl
  | cons hne hds _ ih =>
    rw [Calculator.isNumberShapeFrom, if_pos rfl, isNumberShapeFrom_digits hds,
      List.isEmpty_eq_false_iff.mpr hne]
    exact ih

theorem Fractions.inside (h : Fractions rest) : ∀ c ∈ rest, isNumberPart c = true := by
  induction h with
  | nil => exact nofun
  | cons _ hds _ ih =>
    intro c hc
    rcases List.mem_cons.mp hc with rfl | hc
    · rfl
    · rcases List.mem_append.mp hc with hc | hc
      · exact isNumberPart_of_isDigit (hds c hc)
      · exact ih c hc

/-- What has the shape of a number is digits and then fractions.  There are
digits when one is due. -/
theorem exists_fractions {due : Bool} (h : isNumberShapeFrom due text = true) :
    ∃ ds rest, text = ds ++ rest ∧ (∀ c ∈ ds, c.isDigit = true) ∧ Fractions rest ∧
      (due = true → ds ≠ []) := by
  induction text generalizing due with
  | nil =>
    rw [isNumberShapeFrom, Bool.not_eq_true'] at h
    refine ⟨[], [], rfl, List.forall_mem_nil _, .nil, fun hdue => ?_⟩
    rw [h] at hdue
    cases hdue
  | cons c text ih =>
    rw [isNumberShapeFrom] at h
    split at h
    · rename_i hc
      obtain ⟨hdue, htext⟩ := Bool.and_eq_true_iff.mp h
      obtain ⟨ds, rest, rfl, hds, hrest, hne⟩ := ih htext
      refine ⟨[], '.' :: (ds ++ rest), by rw [hc]; rfl, List.forall_mem_nil _,
        .cons (hne rfl) hds hrest, fun hdue' => ?_⟩
      rw [hdue'] at hdue
      cases hdue
    · obtain ⟨hc, htext⟩ := Bool.and_eq_true_iff.mp h
      obtain ⟨ds, rest, rfl, hds, hrest, -⟩ := ih htext
      exact ⟨c :: ds, rest, rfl, List.forall_mem_cons.mpr ⟨hc, hds⟩, hrest,
        fun _ => List.cons_ne_nil c ds⟩

/-- A number has the form that the scanner asks for, or more than one point. -/
theorem isNumeral_or_secondPoint (hne : text ≠ []) (h : isNumberShape text = true) :
    IsNumeral text ∨ ∃ before rest, text = before ++ rest ∧ SecondPoint before rest := by
  obtain ⟨whole, fractions, rfl, hw, hfractions, -⟩ := exists_fractions h
  cases hfractions with
  | nil =>
    rw [List.append_nil] at hne ⊢
    exact .inl (.digits hne hw)
  | @cons first rest hfirstne hf hrest =>
    by_cases hrestne : rest = []
    · rw [hrestne, List.append_nil]
      exact .inl (.decimal hfirstne hw hf)
    · refine .inr ⟨whole ++ '.' :: first, rest, by simp, .mk hw hfirstne hf hrestne hrest⟩

theorem IsNumeral.isNumberShape (h : IsNumeral text) : isNumberShape text = true := by
  cases h with
  | digits _ hds => exact isNumberShape_digits hds
  | decimal hne hw hf => rw [isNumberShape_decimal hw hf, List.isEmpty_eq_false_iff.mpr hne]; rfl

namespace SecondPoint

theorem inside (h : SecondPoint before rest) : ∀ c ∈ before ++ rest, isNumberPart c = true := by
  cases h with
  | @mk whole first rest hw hne hf _ hrest =>
    intro c hc
    rcases List.mem_append.mp hc with hc | hc
    · exact (IsNumeral.decimal hne hw hf).inside c hc
    · exact hrest.inside c hc

theorem ne_nil (h : SecondPoint before rest) : before ++ rest ≠ [] := by
  cases h
  simp

theorem exists_points (h : SecondPoint before rest) :
    ∃ whole first third, before = whole ++ '.' :: first ∧ rest = '.' :: third ∧ '.' ∉ whole ∧
      '.' ∉ first := by
  cases h with
  | @mk whole first rest hw _ hf hrestne hrest =>
    cases hrest with
    | nil => exact absurd rfl hrestne
    | cons => exact ⟨whole, first, _, rfl, rfl, not_mem_of_isDigit hw, not_mem_of_isDigit hf⟩

theorem isNumberShape (h : SecondPoint before rest) :
    Calculator.isNumberShape (before ++ rest) = true := by
  cases h with
  | @mk whole first rest hw hne hf _ hrest =>
    have hfractions : Fractions ('.' :: (first ++ rest)) := .cons hne hf hrest
    rw [List.append_assoc, List.cons_append, Calculator.isNumberShape, isNumberShapeFrom_digits hw]
    exact hfractions.isNumberShapeFrom

end SecondPoint

/-! ## Kinds of terms -/

/-- A character that is a token by itself is a piece of that kind. -/
theorem mark_of_class (h : CharClass.of? c = some (.mark kind)) :
    c ∈ separators ∧ kindOfPiece? [c] = some kind := by
  have hclass : Dialect.symbolic.classOf? c = some (.mark kind) := by
    rw [Dialect.classOf?, h]
  have hc := classified .symbolic c
  rw [hclass] at hc
  cases hc with
  | mark hc hkind => exact ⟨hc, hkind⟩

/-- What has a kind as a whole is a token by itself, a number or a name. -/
theorem Dialect.kindOf?_cases (h : dialect.kindOf? text = some kind) :
    (∃ c, text = [c] ∧ CharClass.of? c = some (.mark kind)) ∨
      kind = .number ∧ text ≠ [] ∧ isNumberShape text = true ∨
      kind = .name ∧ dialect.allowsNames = true ∧ isNameShape text = true := by
  unfold Dialect.kindOf? at h
  split at h
  · rename_i kind' hmap
    obtain ⟨c, rfl, hc⟩ := List.map_eq_singleton_iff.mp hmap
    cases h
    exact .inl ⟨c, rfl, hc⟩
  · split at h
    · rename_i hnumber
      rw [Bool.and_eq_true, Bool.not_eq_true', List.isEmpty_eq_false_iff] at hnumber
      cases h
      exact .inr (.inl ⟨rfl, hnumber⟩)
    · split at h
      · rename_i hname
        cases h
        exact .inr (.inr ⟨rfl, Bool.and_eq_true_iff.mp hname⟩)
      · cases h

/-- A run is compared with the shapes of numbers and names. -/
theorem Dialect.kindOf?_of_sort (h : ∀ c ∈ text, sort.has c = true) :
    dialect.kindOf? text =
      if !text.isEmpty && isNumberShape text then some .number
      else if dialect.allowsNames && isNameShape text then some .name
      else none := by
  unfold Dialect.kindOf?
  split
  · rename_i kind hmap
    obtain ⟨c, rfl, hc⟩ := List.map_eq_singleton_iff.mp hmap
    have hsort := h c List.mem_cons_self
    rw [eq_false_of_mem_separators (mark_of_class hc).1 sort] at hsort
    cases hsort
  · rfl

theorem Dialect.kindOf?_number (hne : text ≠ []) (h : ∀ c ∈ text, isNumberPart c = true)
    (hshape : isNumberShape text = true) : dialect.kindOf? text = some .number := by
  have hsort : ∀ c ∈ text, RunSort.number.has c = true := h
  rw [Dialect.kindOf?_of_sort hsort, if_pos]
  rw [hshape, List.isEmpty_eq_false_iff.mpr hne]
  rfl

/-- Letters without an underscore have the shape of a name, and digits and points
that of a number; so only one of the shapes is asked for. -/
theorem Dialect.kindOf?_name (hnames : dialect.allowsNames = true) (hne : text ≠ [])
    (h : ∀ c ∈ text, isNamePart c = true) (hunderscore : '_' ∉ text) :
    dialect.kindOf? text = some .name := by
  have hsort : ∀ c ∈ text, RunSort.name.has c = true := h
  have hnumber : isNumberShape text = false := by
    refine Bool.eq_false_of_not_eq_true fun hshape => ?_
    have hpart : isNumberPart (text.head hne) = true := by
      rcases isNumeral_or_secondPoint hne hshape with hnumeral | ⟨before, rest, rfl, hpoint⟩
      · exact hnumeral.inside _ (List.head_mem hne)
      · exact hpoint.inside _ (List.head_mem hne)
    rw [isNumberPart_eq_false (h _ (List.head_mem hne))] at hpart
    cases hpart
  have hletters : ∀ c ∈ text, c.isAlpha = true := by
    intro c hc
    have hpart := h c hc
    rw [isNamePart, Bool.or_eq_true, decide_eq_true_iff] at hpart
    refine hpart.resolve_right ?_
    rintro rfl
    exact hunderscore hc
  have hshape : isNameShape text = true := by
    rw [isNameShape, List.isEmpty_eq_false_iff.mpr hne, List.all_eq_true.mpr hletters]
    rfl
  rw [Dialect.kindOf?_of_sort hsort, hnumber, Bool.and_false, if_neg Bool.false_ne_true, hnames,
    hshape]
  rfl

theorem kindOfTerm_of_kindOf? (h : dialect.kindOf? term.toList = some kind) :
    kindOfTerm dialect term = .ok kind := by
  rw [kindOfTerm, h]

/-- A symbol has its own kind. -/
theorem kindOfTerm_symbol {symbol : String} (h : kind.symbol? = some symbol) :
    kindOfTerm dialect symbol = .ok kind := by
  cases kind with
  | number | name => cases h
  | operator op =>
    cases h
    cases op <;> rfl
  | opening | closing =>
    cases h
    rfl

/-! ## Tokens as terms -/

theorem kindOfTerm_of_piece (hgood : AcceptablePiece dialect text)
    (hkind : kindOfPiece? text = some kind) :
    kindOfTerm dialect (String.ofList text) = .ok kind := by
  cases hsymbol : kind.symbol? with
  | some symbol =>
    rw [kindOfPiece?_symbol hkind hsymbol]
    exact kindOfTerm_symbol hsymbol
  | none =>
    apply kindOfTerm_of_kindOf?
    rw [String.toList_ofList]
    cases kind with
    | number =>
      have hnumeral := hgood.numeral (kindOfPiece?_eq_number hkind)
      exact Dialect.kindOf?_number hnumeral.ne_nil hnumeral.inside hnumeral.isNumberShape
    | name =>
      obtain ⟨hne, hparts⟩ := kindOfPiece?_eq_name hkind
      refine Dialect.kindOf?_name ?_ hne hparts (hgood.name hparts)
      have hpart := hparts _ (List.head_mem hne)
      rcases hgood.allowed _ (List.head_mem hne) with hnumber | hseparator | ⟨hnames, -⟩
      · rw [isNamePart_eq_false hnumber] at hpart
        cases hpart
      · have hsort : isNamePart (text.head hne) = false :=
          eq_false_of_mem_separators hseparator .name
        rw [hsort] at hpart
        cases hpart
      · exact hnames
    | operator op | opening | closing => cases hsymbol

/-- Every token of an acceptable source has its own kind as a term. -/
theorem kindOfTerm_of_mem_cut (h : Acceptable dialect source) (ht : t ∈ cut source) :
    kindOfTerm dialect t.text = .ok t.kind := by
  obtain ⟨before, piece, after, hpieces, hpiece⟩ := exists_piece_of_mem_cut ht
  obtain ⟨kind, hkind, rfl⟩ := Option.map_eq_some_iff.mp hpiece
  have hmem : piece ∈ pieces source := by simp [hpieces]
  exact kindOfTerm_of_piece (acceptable_iff_pieces.mp h piece hmem) hkind

/-! ## Terms as sources -/

/-- A source that is one piece is one token. -/
theorem exists_scan_of_piece (hpieces : pieces term.toList = [term.toList])
    (hgood : AcceptablePiece dialect term.toList) (hkind : kindOfPiece? term.toList = some kind) :
    ∃ t, scan dialect term = .ok [t] ∧ t.kind = kind ∧ t.text = term := by
  have hacceptable : Acceptable dialect term.toList := by
    rw [acceptable_iff_pieces, hpieces]
    exact List.forall_mem_singleton.mpr hgood
  rw [scan_of_acceptable hacceptable, cut, hpieces, tokensOfPieces, tokenOfPiece?, hkind]
  exact ⟨_, rfl, rfl, String.ofList_toList⟩

theorem acceptablePiece_of_numeral (h : IsNumeral text) : AcceptablePiece dialect text := by
  constructor
  · exact fun c hc => .inl (h.inside c hc)
  · exact fun _ => h
  · intro _ hmem
    have hnumber := h.inside '_' hmem
    cases hnumber

theorem acceptablePiece_of_letters (hnames : dialect.allowsNames = true) (hne : text ≠ [])
    (h : ∀ c ∈ text, c.isAlpha = true) : AcceptablePiece dialect text := by
  have hparts : ∀ c ∈ text, isNamePart c = true := fun c hc => isNamePart_of_isAlpha (h c hc)
  constructor
  · exact fun c hc => .inr (.inr ⟨hnames, hparts c hc⟩)
  · intro hnumber
    have hhead := isNumberPart_eq_false (hparts _ (List.head_mem hne))
    rw [hnumber _ (List.head_mem hne)] at hhead
    cases hhead
  · intro _ hmem
    have hletter := h '_' hmem
    cases hletter

/-- A term with a kind is one token as a source, or it is a number with more than
one point. -/
theorem term_cases (h : kindOfTerm dialect term = .ok kind) :
    (∃ t, scan dialect term = .ok [t] ∧ t.kind = kind ∧ t.text = term) ∨
      kind = .number ∧ ∃ before rest, term.toList = before ++ rest ∧ SecondPoint before rest := by
  have hkind : dialect.kindOf? term.toList = some kind := by
    unfold kindOfTerm at h
    split at h
    · cases h
      assumption
    · cases h
  rcases Dialect.kindOf?_cases hkind with
    ⟨c, hc, hmark⟩ | ⟨rfl, hne, hshape⟩ | ⟨rfl, hnames, hshape⟩
  · obtain ⟨hseparator, hpiece⟩ := mark_of_class hmark
    refine .inl (exists_scan_of_piece ?_ ?_ ?_)
    · rw [hc]
      exact pieces_cons hseparator []
    · rw [hc]
      exact acceptablePiece_of_separator hseparator
    · rw [hc, hpiece]
  · rcases isNumeral_or_secondPoint hne hshape with hnumeral | hpoint
    · have hsort : ∀ c ∈ term.toList, RunSort.number.has c = true := hnumeral.inside
      exact .inl (exists_scan_of_piece (pieces_of_sort hne hsort)
        (acceptablePiece_of_numeral hnumeral) (kindOfPiece?_of_sort hne hsort))
    · exact .inr ⟨rfl, hpoint⟩
  · rw [isNameShape, Bool.and_eq_true, Bool.not_eq_true', List.isEmpty_eq_false_iff,
      List.all_eq_true] at hshape
    obtain ⟨hne, hletters⟩ := hshape
    have hgood : AcceptablePiece dialect term.toList :=
      acceptablePiece_of_letters hnames hne hletters
    have hsort : ∀ c ∈ term.toList, RunSort.name.has c = true :=
      fun c hc => isNamePart_of_isAlpha (hletters c hc)
    exact .inl (exists_scan_of_piece (pieces_of_sort hne hsort) hgood
      (kindOfPiece?_of_sort hne hsort))

/-! ## Numbers with more than one point as sources -/

/-- In a source of one sort there is one run. -/
theorem MaximalRun.eq_source (h : MaximalRun sort source pre run post)
    (hall : ∀ c ∈ source, sort.has c = true) : pre = [] ∧ run = source ∧ post = [] := by
  have hpre : pre = [] := by
    rw [← List.getLast?_eq_none_iff, Option.eq_none_iff_forall_not_mem]
    intro c hc
    have hsort := hall c (by rw [h.split]; simp [List.mem_of_getLast? hc])
    rw [h.before c hc] at hsort
    cases hsort
  have hpost : post = [] := by
    rw [← List.head?_eq_none_iff, Option.eq_none_iff_forall_not_mem]
    intro c hc
    have hsort := hall c (by rw [h.split]; simp [List.mem_of_mem_head? hc])
    rw [h.after c hc] at hsort
    cases hsort
  have hrun := h.split
  rw [hpre, hpost, List.nil_append, List.append_nil] at hrun
  exact ⟨hpre, hrun.symm, hpost⟩

/-- A number with more than one point has one fault, its second point. -/
theorem SecondPoint.fault_iff (h : SecondPoint before rest) {offset : Nat} {context : ScanContext}
    {e : ScanError} :
    Fault dialect (before ++ rest) offset context e ↔ offset = utf8Len before ∧
      context = .inNumber ∧
      e = ⟨.repeatedPoint, .ofOffsets (utf8Len before) (utf8Len before + 1)⟩ := by
  have hinside : ∀ c ∈ before ++ rest, RunSort.number.has c = true := h.inside
  obtain ⟨whole, first, third, rfl, rfl, hwhole, hfirst⟩ := h.exists_points
  constructor
  · intro hfault
    cases hfault with
    | strange hsource hc => exact absurd (.inl (hinside _ (by simp [hsource]))) hc
    | @point pre first' second' third' post hrun hfirst' hsecond' =>
      obtain ⟨rfl, hsource, rfl⟩ := hrun.eq_source hinside
      simp only [List.append_assoc, List.cons_append] at hsource
      obtain ⟨rfl, htail⟩ := Text.append_stop_inj hfirst' hwhole hsource
      obtain ⟨rfl, -⟩ := Text.append_stop_inj hsecond' hfirst htail
      exact ⟨rfl, rfl, rfl⟩
    | @run sort pre run post context fault hrun hbad =>
      cases sort with
      | number =>
        obtain ⟨-, hsource, -⟩ := hrun.eq_source hinside
        cases hbad with
        | @number whole' hwhole' =>
          simp only [List.append_assoc, List.cons_append] at hsource
          obtain ⟨-, htail⟩ := Text.append_stop_inj hwhole' hwhole hsource
          simp at htail
      | name =>
        have hunderscore : '_' ∈ whole ++ '.' :: first ++ '.' :: third := by
          rw [hrun.split]
          simp [hbad.underscore_mem]
        have hpart := hinside '_' hunderscore
        cases hpart
  · rintro ⟨rfl, rfl, rfl⟩
    have hrun : MaximalRun .number (whole ++ '.' :: first ++ '.' :: third) []
        (whole ++ '.' :: first ++ '.' :: third) [] :=
      ⟨by simp, by simp, hinside, nofun, nofun⟩
    exact .point hrun hwhole hfirst

/-- Such a number fails as a source at its second point. -/
theorem scan_of_secondPoint (h : SecondPoint before rest) (hterm : term.toList = before ++ rest) :
    scan dialect term =
      .error ⟨.repeatedPoint, .ofOffsets (utf8Len before) (utf8Len before + 1)⟩ := by
  apply scan_of_firstFault
  rw [hterm]
  refine ⟨utf8Len before, h.fault_iff.mpr ⟨rfl, rfl, rfl⟩, ?_⟩
  intro offset context e hfault
  obtain ⟨rfl, -, rfl⟩ := h.fault_iff.mp hfault
  exact .inr ⟨rfl, .inl rfl⟩

/-! ## Where terms and sources agree -/

/-- What a text is as a whole term and what it is as a source. -/
structure TermsAgree (dialect : Dialect) (term : String) : Prop where
  /-- A term with a kind is one token of that kind, or a number with more than
  one point. -/
  kind : ∀ kind, kindOfTerm dialect term = .ok kind ↔
    (∃ t, scan dialect term = .ok [t] ∧ t.kind = kind ∧ t.text = term) ∨
      kind = .number ∧ ∃ before rest, term.toList = before ++ rest ∧ SecondPoint before rest
  /-- A number with more than one point fails as a source at the second one. -/
  secondPoint : ∀ before rest, term.toList = before ++ rest → SecondPoint before rest →
    scan dialect term = .error ⟨.repeatedPoint, .ofOffsets (utf8Len before) (utf8Len before + 1)⟩
  /-- Every other term fails, and its span is the whole term. -/
  error : ∀ e, kindOfTerm dialect term = .error e ↔
    ((¬ ∃ t, scan dialect term = .ok [t] ∧ t.text = term) ∧
      ¬ ∃ before rest, term.toList = before ++ rest ∧ SecondPoint before rest) ∧
      e = ⟨.unknownTerm, .ofOffsets 0 term.utf8ByteSize⟩
  /-- The tokens of the text as a source have their own kinds as terms. -/
  tokens : ∀ ts, scan dialect term = .ok ts → ∀ t ∈ ts, kindOfTerm dialect t.text = .ok t.kind

theorem kindOfTerm_of_mem_scan {ts : List Token} (h : scan dialect term = .ok ts) (ht : t ∈ ts) :
    kindOfTerm dialect t.text = .ok t.kind := by
  obtain ⟨hacceptable, rfl⟩ := acceptable_of_scan h
  exact kindOfTerm_of_mem_cut hacceptable ht

theorem kindOfTerm_of_scan (h : scan dialect term = .ok [t]) (htext : t.text = term) :
    kindOfTerm dialect term = .ok t.kind := by
  rw [← htext] at h ⊢
  exact kindOfTerm_of_mem_scan h List.mem_cons_self

theorem kindOfTerm_of_secondPoint (hterm : term.toList = before ++ rest)
    (h : SecondPoint before rest) : kindOfTerm dialect term = .ok .number := by
  apply kindOfTerm_of_kindOf?
  rw [hterm]
  exact Dialect.kindOf?_number h.ne_nil h.inside h.isNumberShape

theorem kindOfTerm_eq_ok_iff :
    kindOfTerm dialect term = .ok kind ↔
      (∃ t, scan dialect term = .ok [t] ∧ t.kind = kind ∧ t.text = term) ∨
        kind = .number ∧ ∃ before rest, term.toList = before ++ rest ∧ SecondPoint before rest := by
  constructor
  · exact term_cases
  · rintro (⟨t, hscan, rfl, htext⟩ | ⟨rfl, before, rest, hterm, h⟩)
    · exact kindOfTerm_of_scan hscan htext
    · exact kindOfTerm_of_secondPoint hterm h

/-- A term that fails is no token and no number, and the whole term is at fault. -/
theorem kindOfTerm_eq_error_iff {e : ScanError} :
    kindOfTerm dialect term = .error e ↔
      (∀ kind, kindOfTerm dialect term ≠ .ok kind) ∧
        e = ⟨.unknownTerm, .ofOffsets 0 term.utf8ByteSize⟩ := by
  unfold kindOfTerm
  split
  · simp
  · simp [eq_comm]

/-- A text has the kind of its only token, if it is that token, and a number with
more than one point has a kind although it cannot be cut; all other texts fail as
terms.  The tokens of every source have their own kinds. -/
theorem termsAgree (dialect : Dialect) (term : String) : TermsAgree dialect term where
  kind _ := kindOfTerm_eq_ok_iff
  secondPoint _ _ hterm h := scan_of_secondPoint h hterm
  error e := by
    rw [kindOfTerm_eq_error_iff, and_congr_left_iff]
    rintro rfl
    constructor
    · intro hnone
      constructor
      · rintro ⟨t, hscan, htext⟩
        exact hnone t.kind (kindOfTerm_of_scan hscan htext)
      · rintro ⟨before, rest, hterm, h⟩
        exact hnone .number (kindOfTerm_of_secondPoint hterm h)
    · rintro ⟨htoken, hpoint⟩ kind hkind
      rcases term_cases hkind with ⟨t, hscan, -, htext⟩ | ⟨-, h⟩
      · exact htoken ⟨t, hscan, htext⟩
      · exact hpoint h
  tokens _ hscan _ ht := kindOfTerm_of_mem_scan hscan ht

/-- Digits with two points have a kind as a term and are no source. -/
example : kindOfTerm .numeric "1.20.3" = .ok .number ∧
    scan .numeric "1.20.3" = .error ⟨.repeatedPoint, ⟨4, 5⟩⟩ := by decide

end

end Calculator
