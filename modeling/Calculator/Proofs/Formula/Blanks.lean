import Calculator.Formula.Source
import Calculator.Proofs.Expr.Computation
import Calculator.Proofs.Formula.Agreement
import Calculator.Proofs.Token.Layout
import Calculator.Proofs.Token.Pieces

/-!
# Blanks put into a source

More blanks change nothing in a source, as long as none of them is put into a
run.

`Spaced` puts them in.  The pieces of a source that are not blanks, its `words`,
are the same with and without them (`Spaced.words_eq`), and the words tell
whether a source is acceptable (`acceptable_iff_words`) and what its tokens are,
but for their places (`map_unplaced_cut`).  An assembly does not ask for places,
so the two sources come to the same (`SameButPlaces`).
-/

namespace Calculator

open Assembly (mem_names_of_ofTokens)

/-- A source, and the same source with blanks put in where no run goes on: not
between two digits or points, and not between two letters or underscores. -/
inductive Spaced : List Char → List Char → Prop
  | same (cs : List Char) : Spaced cs cs
  /-- A blank after `pre`, and further ones from there on.  The last character of
  `pre` is what stood before that place, unless a blank has just been put there. -/
  | blank (pre : List Char) {post post' : List Char}
      (hplace : ∀ a ∈ pre.getLast?, ∀ b ∈ post.head?, inOneRun a b = false)
      (h : Spaced post post') : Spaced (pre ++ post) (pre ++ ' ' :: post')

/-- Two outcomes that differ in places at most.  Of errors of the scan nothing
more is said, for they may be about different characters. -/
inductive SameButPlaces : Except Error Formula → Except Error Formula → Prop
  | formula {f g : Formula} (hroot : f.root.unplaced = g.root.unplaced) (hnames : f.names = g.names) :
      SameButPlaces (.ok f) (.ok g)
  | structural {e e' : StructureError} (h : e.fault = e'.fault) :
      SameButPlaces (.error (.structural e)) (.error (.structural e'))
  | scan {e e' : ScanError} : SameButPlaces (.error (.scan e)) (.error (.scan e'))

/-! ## Words -/

/-- The pieces of a source that are not blanks. -/
def words (source : List Char) : List (List Char) := (pieces source).filter (· ≠ [' '])

section

variable {dialect : Dialect} {cs cs' pre post : List Char}

theorem words_append (h : ∀ a ∈ pre.getLast?, ∀ b ∈ post.head?, inOneRun a b = false) :
    words (pre ++ post) = words pre ++ words post := by
  rw [words, pieces_append h, List.filter_append]
  rfl

theorem words_blank (cs : List Char) : words (' ' :: cs) = words cs := by
  rw [words, pieces_cons (by decide)]
  rfl

theorem Spaced.words_eq (h : Spaced cs cs') : words cs' = words cs := by
  induction h with
  | same => rfl
  | blank pre hplace h ih =>
    rw [words_append hplace, words_append, words_blank, ih]
    intro a _ b hb
    obtain rfl : ' ' = b := by simpa using hb
    rw [inOneRun_comm]
    exact inOneRun_of_mem_separators (by decide) a

theorem acceptable_iff_words :
    Acceptable dialect cs ↔ ∀ word ∈ words cs, AcceptablePiece dialect word := by
  rw [acceptable_iff_pieces]
  constructor
  · exact fun h word hword => h word (List.mem_filter.mp hword).1
  · intro h piece hpiece
    by_cases hblank : piece = [' ']
    · rw [hblank]
      exact acceptablePiece_of_separator (by decide)
    · exact h piece (List.mem_filter.mpr ⟨hpiece, decide_eq_true hblank⟩)

theorem unplaced_tokenOfPiece? (start : Nat) (piece : List Char) :
    (tokenOfPiece? start piece).map Token.unplaced = (tokenOfPiece? 0 piece).map Token.unplaced := by
  rw [tokenOfPiece?, tokenOfPiece?, Option.map_map, Option.map_map]
  rfl

theorem map_unplaced_tokensOfPieces (start : Nat) (xs : List (List Char)) :
    (tokensOfPieces start xs).map Token.unplaced =
      xs.filterMap fun piece => (tokenOfPiece? 0 piece).map Token.unplaced := by
  induction xs generalizing start with
  | nil => rfl
  | cons x xs ih =>
    rw [tokensOfPieces, List.map_append, ih, List.filterMap_cons, ← unplaced_tokenOfPiece? start]
    cases tokenOfPiece? start x <;> rfl

/-- Without their places, the tokens of a source are known from its words. -/
theorem map_unplaced_cut (cs : List Char) :
    (cut cs).map Token.unplaced =
      (words cs).filterMap fun word => (tokenOfPiece? 0 word).map Token.unplaced := by
  rw [cut, map_unplaced_tokensOfPieces, words, List.filterMap_filter]
  refine List.filterMap_congr fun piece _ => ?_
  by_cases hblank : piece = [' ']
  · rw [hblank]
    rfl
  · simp [hblank]

end

/-! ## Tokens in other places -/

theorem kind_eq_of_unplaced {t u : Token} (h : t.unplaced = u.unplaced) : t.kind = u.kind := by
  show t.unplaced.kind = u.unplaced.kind
  rw [h]

theorem text_eq_of_unplaced {t u : Token} (h : t.unplaced = u.unplaced) : t.text = u.text := by
  show t.unplaced.text = u.unplaced.text
  rw [h]

theorem correspondence_unplaced :
    Correspondence (fun t u => t.unplaced = u.unplaced)
      (fun xs ys => xs.map Expr.unplaced = ys.map Expr.unplaced) where
  isOperand h := by rw [kind_eq_of_unplaced h]
  kind h _ := kind_eq_of_unplaced h
  length h := by simpa using congrArg List.length h
  push ht _ h := by
    rw [List.map_cons, List.map_cons, Expr.unplaced_ofToken, Expr.unplaced_ofToken, ht, h]
  join ht h := by
    obtain ⟨hupper, htail⟩ := List.cons.inj h
    obtain ⟨hlower, hrest⟩ := List.cons.inj htail
    rw [List.map_cons, List.map_cons, Expr.unplaced_ofOperands, Expr.unplaced_ofOperands, ht,
      hlower, hupper, hrest]

section

variable {source source' : String} {ts us : List Token} {f g : Formula}

theorem agree_unplaced (h : ts.map Token.unplaced = us.map Token.unplaced) :
    Agree (fun f g => f.root.unplaced = g.root.unplaced) (Formula.ofTokens ts)
      (Formula.ofTokens us) := by
  have hts : List.Forall₂ (fun t u => t.unplaced = u.unplaced) ts us := by
    have heq : List.Forall₂ Eq (ts.map Token.unplaced) (us.map Token.unplaced) := by
      rw [h]
      exact List.forall₂_same.mpr fun _ _ => rfl
    exact List.forall₂_map_right_iff.mp (List.forall₂_map_left_iff.mp heq)
  refine (correspondence_unplaced.agree_ofTokens rfl hts).mono fun f g _ hroots => ?_
  exact (List.cons.inj hroots).1

theorem exists_name_of_map_unplaced (h : ts.map Token.unplaced = us.map Token.unplaced)
    {name : String} (hname : ∃ t ∈ ts, t.kind = .name ∧ t.text = name) :
    ∃ u ∈ us, u.kind = .name ∧ u.text = name := by
  obtain ⟨t, ht, hk, rfl⟩ := hname
  obtain ⟨u, hu, hut⟩ := List.mem_map.mp (h ▸ List.mem_map_of_mem ht)
  exact ⟨u, hu, (kind_eq_of_unplaced hut).trans hk, text_eq_of_unplaced hut⟩

theorem names_eq_of_map_unplaced (h : ts.map Token.unplaced = us.map Token.unplaced)
    (hf : Formula.ofTokens ts = .ok f) (hg : Formula.ofTokens us = .ok g) : f.names = g.names := by
  refine Std.ExtTreeSet.ext_mem fun name => ?_
  rw [mem_names_of_ofTokens hf, mem_names_of_ofTokens hg]
  exact ⟨exists_name_of_map_unplaced h, exists_name_of_map_unplaced h.symm⟩

/-! ## Outcomes -/

theorem sameButPlaces_of_spaced (dialect : Dialect) (h : Spaced source.toList source'.toList) :
    SameButPlaces (Formula.ofSource dialect source) (Formula.ofSource dialect source') := by
  have hacceptable : Acceptable dialect source.toList ↔ Acceptable dialect source'.toList := by
    rw [acceptable_iff_words, acceptable_iff_words, h.words_eq]
  cases hscan : scan dialect source with
  | error e =>
    rw [Formula.ofSource_of_scan_error hscan]
    cases hscan' : scan dialect source' with
    | error e' =>
      rw [Formula.ofSource_of_scan_error hscan']
      exact .scan
    | ok us =>
      have hsource := hacceptable.mpr (acceptable_of_scan hscan').1
      exact absurd hsource (firstFault_of_scan hscan).not_acceptable
  | ok ts =>
    obtain ⟨hsource, rfl⟩ := acceptable_of_scan hscan
    rw [Formula.ofSource_of_scan hscan,
      Formula.ofSource_of_scan (scan_of_acceptable (hacceptable.mp hsource))]
    have hcut : (cut source.toList).map Token.unplaced = (cut source'.toList).map Token.unplaced := by
      rw [map_unplaced_cut, map_unplaced_cut, h.words_eq]
    have hagree := agree_unplaced hcut
    generalize hts : Formula.ofTokens (cut source.toList) = result at hagree
    generalize hus : Formula.ofTokens (cut source'.toList) = result' at hagree
    cases hagree with
    | ok hroot => exact .formula hroot (names_eq_of_map_unplaced hcut hts hus)
    | error hfault => exact .structural hfault

theorem SameButPlaces.symm {result result' : Except Error Formula}
    (h : SameButPlaces result result') : SameButPlaces result' result := by
  cases h with
  | formula hroot hnames => exact .formula hroot.symm hnames.symm
  | structural hfault => exact .structural hfault.symm
  | scan => exact .scan

/-- A value does not depend on places. -/
theorem evaluate_of_sameButPlaces (h : SameButPlaces (Formula.ofSource .symbolic source)
    (Formula.ofSource .symbolic source')) {x : Float} (hx : evaluate source = .ok x) :
    evaluate source' = .ok x := by
  obtain ⟨f, hf, hvalue⟩ := evaluate_eq_ok_iff.mp hx
  rw [hf] at h
  generalize hg : Formula.ofSource .symbolic source' = result at h
  cases h with
  | @formula _ g hroot hnames =>
    refine evaluate_eq_ok_iff.mpr ⟨g, hg, ?_⟩
    have hcomputes := Expr.computes_unplaced.mpr (Expr.computes_iff_evaluate.mpr hvalue)
    rw [hroot] at hcomputes
    exact Expr.computes_iff_evaluate.mp (Expr.computes_unplaced.mp hcomputes)

/-- Blanks that are put between the runs of a source change neither its formula
nor what is wrong with it, but for the places, and its value not at all. -/
theorem ofSource_spaced (h : Spaced source.toList source'.toList) (dialect : Dialect) :
    SameButPlaces (Formula.ofSource dialect source) (Formula.ofSource dialect source') ∧
      ∀ x, evaluate source = .ok x ↔ evaluate source' = .ok x := by
  have hsame := sameButPlaces_of_spaced .symbolic h
  refine ⟨sameButPlaces_of_spaced dialect h, fun x => ⟨evaluate_of_sameButPlaces hsame, ?_⟩⟩
  exact evaluate_of_sameButPlaces hsame.symm

/-- There is a place at both ends, and on both sides of an operator, but none in
`12`. -/
theorem ofSource_spaced_product :
    Spaced "12*(x)".toList " 12 *  (x) ".toList ∧
      SameButPlaces (Formula.ofSource .symbolic "12*(x)")
        (Formula.ofSource .symbolic " 12 *  (x) ") ∧
      ∀ x, evaluate "12*(x)" = .ok x ↔ evaluate " 12 *  (x) " = .ok x := by
  have hplace {a b : Char} (h : inOneRun a b = false) :
      ∀ c ∈ some a, ∀ d ∈ some b, inOneRun c d = false := by
    intro c hc d hd
    cases hc
    cases hd
    exact h
  have hspaced : Spaced "12*(x)".toList " 12 *  (x) ".toList := by
    refine .blank [] nofun (.blank ['1', '2'] (hplace (by rfl)) ?_)
    refine .blank ['*'] (hplace (by rfl)) (.blank [] nofun ?_)
    exact .blank ['(', 'x', ')'] (fun _ _ => nofun) (.same [])
  exact ⟨hspaced, ofSource_spaced hspaced .symbolic⟩

end

end Calculator
