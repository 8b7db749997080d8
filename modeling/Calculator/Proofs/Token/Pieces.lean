import Calculator.Proofs.Token.Faults

/-!
# What the pieces tell

The pieces of a source decide what becomes of it.

A piece is a run of one sort, or else a character that is in no run
(`has_eq_of_mem_pieces`, `eq_singleton_of_mem_pieces`).  A source has a name among
its tokens when it has a character of a name (`exists_name_of_mem`,
`exists_isNamePart_of_name`), and it is acceptable when each of its pieces is,
taken by itself (`acceptable_iff_pieces`).
-/

namespace Calculator

open String (utf8Len)

section

variable {dialect : Dialect} {source piece run : List Char} {sort : RunSort} {a b c d : Char}
  {t : Token}

/-! ## Characters of one piece -/

/-- Neighbours in one run are of the same sort. -/
theorem has_eq_of_inOneRun (h : inOneRun a b = true) (sort : RunSort) :
    sort.has a = sort.has b := by
  cases ha : sort.has a with
  | true => exact (eq_true_of_ne_false fun hb => by rw [inOneRun_eq_false ha hb] at h; cases h).symm
  | false =>
    refine (eq_false_of_ne_true fun hb => ?_).symm
    rw [inOneRun_comm, inOneRun_eq_false hb ha] at h
    cases h

theorem isChain_of_mem_pieces (h : piece ∈ pieces source) :
    piece.IsChain fun a b => inOneRun a b = true :=
  List.isChain_of_mem_splitBy h

/-- The characters of a piece are of the same sort. -/
theorem has_eq_of_mem_pieces (hpiece : piece ∈ pieces source) (hc : c ∈ piece) (hd : d ∈ piece)
    (sort : RunSort) : sort.has c = sort.has d := by
  have hne := List.ne_nil_of_mem hc
  have hhead : ∀ a ∈ piece, sort.has a = sort.has (piece.head hne) := by
    refine List.IsChain.induction _ piece (isChain_of_mem_pieces hpiece) ?_ fun _ => rfl
    intro a b hrun ha
    rw [← ha, has_eq_of_inOneRun hrun sort]
  rw [hhead c hc, hhead d hd]

/-- A character that is in no run is a piece by itself. -/
theorem eq_singleton_of_mem_pieces (hpiece : piece ∈ pieces source) (hc : c ∈ piece)
    (hseparator : c ∈ separators) : piece = [c] := by
  have halone := inOneRun_of_mem_separators hseparator
  obtain ⟨before, after, rfl⟩ := List.append_of_mem hc
  obtain ⟨-, hafter, hbefore⟩ := List.isChain_append.mp (isChain_of_mem_pieces hpiece)
  have hnone : before = [] := by
    rcases List.eq_nil_or_concat' before with rfl | ⟨before, a, rfl⟩
    · rfl
    · have hrun := hbefore a (by simp) c (by simp)
      rw [inOneRun_comm, halone a] at hrun
      cases hrun
  cases after with
  | nil => rw [hnone, List.nil_append]
  | cons a after =>
    have hrun := (List.isChain_cons_cons.mp hafter).1
    rw [halone a] at hrun
    cases hrun

/-! ## Names -/

/-- A source with a character of a name in it has a name among its tokens. -/
theorem exists_name_of_mem (hc : c ∈ source) (hname : isNamePart c = true) :
    ∃ t ∈ cut source, t.kind = .name := by
  rw [← flatten_pieces source] at hc
  obtain ⟨piece, hpiece, hc⟩ := List.mem_flatten.mp hc
  have hrun : ∀ d ∈ piece, RunSort.name.has d = true := by
    intro d hd
    rw [← has_eq_of_mem_pieces hpiece hc hd .name]
    exact hname
  obtain ⟨before, after, hpieces⟩ := List.append_of_mem hpiece
  have hkind := kindOfPiece?_of_sort (List.ne_nil_of_mem hc) hrun
  have ht : ∃ t, tokenOfPiece? (utf8Len before.flatten) piece = some t ∧ t.kind = .name := by
    rw [tokenOfPiece?, hkind]
    exact ⟨_, rfl, rfl⟩
  obtain ⟨t, ht, hk⟩ := ht
  exact ⟨t, mem_cut_of_piece hpieces ht, hk⟩

/-- And only such a source has. -/
theorem exists_isNamePart_of_name (ht : t ∈ cut source) (hk : t.kind = .name) :
    ∃ c ∈ source, isNamePart c = true := by
  obtain ⟨before, piece, after, hpieces, hpiece⟩ := exists_piece_of_mem_cut ht
  obtain ⟨kind, hkind, rfl⟩ := Option.map_eq_some_iff.mp hpiece
  cases hk
  obtain ⟨hne, hall⟩ := kindOfPiece?_eq_name hkind
  refine ⟨piece.head hne, ?_, hall _ (List.head_mem hne)⟩
  rw [← flatten_pieces source, hpieces]
  simp

/-! ## Acceptable pieces -/

/-- A piece that may stand in a source. -/
structure AcceptablePiece (dialect : Dialect) (piece : List Char) : Prop where
  allowed : ∀ c ∈ piece, dialect.Allows c
  numeral : (∀ c ∈ piece, isNumberPart c = true) → IsNumeral piece
  name : (∀ c ∈ piece, isNamePart c = true) → '_' ∉ piece

theorem acceptablePiece_of_separator {c : Char} (hc : c ∈ separators) :
    AcceptablePiece dialect [c] := by
  constructor
  · intro d hd
    rw [List.mem_singleton.mp hd]
    exact .inr (.inl hc)
  · intro hnumber
    have hsort : isNumberPart c = false := eq_false_of_mem_separators hc .number
    rw [hnumber c List.mem_cons_self] at hsort
    cases hsort
  · intro hname
    have hsort : isNamePart c = false := eq_false_of_mem_separators hc .name
    rw [hname c List.mem_cons_self] at hsort
    cases hsort

theorem exists_maximalRun_iff :
    (∃ pre post, MaximalRun sort source pre run post) ↔
      (∀ c ∈ run, sort.has c = true) ∧ run ∈ pieces source := by
  constructor
  · rintro ⟨pre, post, hrun⟩
    obtain ⟨h, before, after, hpieces, -⟩ := maximalRun_iff_pieces.mp hrun
    exact ⟨h, by simp [hpieces]⟩
  · rintro ⟨h, hmem⟩
    obtain ⟨before, after, hpieces⟩ := List.append_of_mem hmem
    exact ⟨_, _, maximalRun_iff_pieces.mpr ⟨h, before, after, hpieces, rfl, rfl⟩⟩

/-- A source is acceptable when all its pieces are. -/
theorem acceptable_iff_pieces :
    Acceptable dialect source ↔ ∀ piece ∈ pieces source, AcceptablePiece dialect piece := by
  constructor
  · rintro ⟨hallowed, hnumerals, hnames⟩ piece hpiece
    refine ⟨fun c hc => hallowed c ?_, fun hall => ?_, fun hall => ?_⟩
    · rw [← flatten_pieces source]
      exact List.mem_flatten_of_mem hpiece hc
    · have hrun : ∃ pre post, MaximalRun .number source pre piece post :=
        exists_maximalRun_iff.mpr ⟨hall, hpiece⟩
      obtain ⟨pre, post, hrun⟩ := hrun
      exact hnumerals pre piece post hrun
    · have hrun : ∃ pre post, MaximalRun .name source pre piece post :=
        exists_maximalRun_iff.mpr ⟨hall, hpiece⟩
      obtain ⟨pre, post, hrun⟩ := hrun
      exact hnames pre piece post hrun
  · intro h
    refine ⟨fun c hc => ?_, fun pre run post hrun => ?_, fun pre run post hrun => ?_⟩
    · rw [← flatten_pieces source] at hc
      obtain ⟨piece, hpiece, hc⟩ := List.mem_flatten.mp hc
      exact (h piece hpiece).allowed c hc
    · obtain ⟨hall, hpiece⟩ := exists_maximalRun_iff.mp ⟨pre, post, hrun⟩
      exact (h run hpiece).numeral hall
    · obtain ⟨hall, hpiece⟩ := exists_maximalRun_iff.mp ⟨pre, post, hrun⟩
      exact (h run hpiece).name hall

end

end Calculator
