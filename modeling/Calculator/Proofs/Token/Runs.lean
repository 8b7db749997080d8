import Calculator.Token.Shape
import Mathlib.Data.List.SplitBy
import Mathlib.Data.List.TakeWhile
import Mathlib.Data.String.Basic

/-!
# Runs and pieces of a source

What a source looks like before anything scans it.

* `Dialect.Allows` lists the characters that a source may hold.
* A `MaximalRun` is as long a run of characters of one sort as there is: of
  digits and points (`isNumberPart`), or of letters and underscores
  (`isNamePart`).  `IsNumeral` is the form that a run of digits and points has
  in a sound source.
* `pieces` cuts a source into its maximal runs and the characters between them,
  and `cut` is the list of the tokens of the pieces.

`maximalRun_iff_pieces` ties runs to pieces, and `cut_append_run` and
`cut_concat` say what one more piece adds to the tokens.
-/

namespace Calculator

open String (utf8Len)

/-! ## Characters -/

/-- The characters that gather in runs from which numbers come. -/
def isNumberPart (c : Char) : Bool := c.isDigit || c = '.'

/-- The characters that gather in runs from which names come. -/
def isNamePart (c : Char) : Bool := c.isAlpha || c = '_'

/-- The characters that are in no run. -/
def separators : List Char := ['+', '-', '*', '/', '(', ')', ' ']

/-- The characters that a source of a dialect may hold. -/
def Dialect.Allows (dialect : Dialect) (c : Char) : Prop :=
  isNumberPart c = true ∨ c ∈ separators ∨ dialect.allowsNames = true ∧ isNamePart c = true

/-- The sorts of character that gather in runs. -/
inductive RunSort where
  /-- Digits and points. -/
  | number
  /-- Letters and underscores. -/
  | name

/-- The characters of a sort. -/
def RunSort.has : RunSort → Char → Bool
  | number => isNumberPart
  | name => isNamePart

/-- The kind of the tokens that come from runs of a sort. -/
def RunSort.kind : RunSort → Kind
  | number => .number
  | name => .name

theorem toNat_of_isNumberPart {c : Char} (h : isNumberPart c = true) : c.toNat ≤ 57 := by
  simp only [isNumberPart, Char.isDigit, Bool.or_eq_true, Bool.and_eq_true, decide_eq_true_eq] at h
  rcases h with ⟨-, hhigh⟩ | rfl
  · exact UInt32.le_iff_toNat_le.mp hhigh
  · decide

theorem toNat_of_isNamePart {c : Char} (h : isNamePart c = true) : 65 ≤ c.toNat := by
  rcases Bool.or_eq_true_iff.mp h with halpha | hunderscore
  · rcases Bool.or_eq_true_iff.mp halpha with hupper | hlower
    · exact UInt32.le_iff_toNat_le.mp (of_decide_eq_true hupper).1
    · have hlow := UInt32.le_iff_toNat_le.mp (of_decide_eq_true (Bool.and_eq_true_iff.mp hlower).1)
      exact Nat.le_trans (by decide) hlow
  · rw [of_decide_eq_true hunderscore]
    decide

theorem isNamePart_eq_false {c : Char} (h : isNumberPart c = true) : isNamePart c = false := by
  have hhigh := toNat_of_isNumberPart h
  refine Bool.eq_false_of_not_eq_true fun hname => ?_
  have hlow := toNat_of_isNamePart hname
  omega

theorem isNumberPart_eq_false {c : Char} (h : isNamePart c = true) : isNumberPart c = false := by
  refine Bool.eq_false_of_not_eq_true fun hnumber => ?_
  rw [isNamePart_eq_false hnumber] at h
  cases h

/-- No character is of two sorts. -/
theorem RunSort.eq_of_has {sort sort' : RunSort} {c : Char} (h : sort.has c = true)
    (h' : sort'.has c = true) : sort = sort' := by
  cases sort with
  | number =>
    cases sort' with
    | number => rfl
    | name => exact absurd h' (Bool.eq_false_iff.mp (isNamePart_eq_false h))
  | name =>
    cases sort' with
    | number => exact absurd h' (Bool.eq_false_iff.mp (isNumberPart_eq_false h))
    | name => rfl

theorem eq_false_of_mem_separators {c : Char} (h : c ∈ separators) (sort : RunSort) :
    sort.has c = false := by
  have hsorts : (separators.all fun d => !isNumberPart d && !isNamePart d) = true := by decide
  have hc := List.all_eq_true.mp hsorts c h
  rw [Bool.and_eq_true, Bool.not_eq_true', Bool.not_eq_true'] at hc
  cases sort with
  | number => exact hc.1
  | name => exact hc.2

/-! ## Maximal runs -/

/-- In `source`, after `pre` and before `post`, stands `run`: characters of one
sort, at least one, and no neighbour is of that sort. -/
structure MaximalRun (sort : RunSort) (source pre run post : List Char) : Prop where
  split : source = pre ++ run ++ post
  ne_nil : run ≠ []
  inside : ∀ c ∈ run, sort.has c = true
  before : ∀ c ∈ pre.getLast?, sort.has c = false
  after : ∀ c ∈ post.head?, sort.has c = false

/-- The forms of a number: digits, or digits, possibly none, and a point with
digits after it. -/
inductive IsNumeral : List Char → Prop
  | digits {ds : List Char} (hne : ds ≠ []) (h : ∀ c ∈ ds, c.isDigit = true) : IsNumeral ds
  | decimal {whole fraction : List Char} (hne : fraction ≠ [])
      (hw : ∀ c ∈ whole, c.isDigit = true) (hf : ∀ c ∈ fraction, c.isDigit = true) :
      IsNumeral (whole ++ '.' :: fraction)

/-- Whether a text is a numeral: after its leading digits comes nothing, or a
point and more digits. -/
def isNumeral (text : List Char) : Bool :=
  match text.dropWhile Char.isDigit with
  | [] => !text.isEmpty
  | c :: fraction => c = '.' && !fraction.isEmpty && fraction.all Char.isDigit

theorem isNumeral_iff {text : List Char} : isNumeral text = true ↔ IsNumeral text := by
  constructor
  · intro h
    have hsplit := List.takeWhile_append_dropWhile (p := Char.isDigit) (l := text)
    have hwhole : ∀ c ∈ text.takeWhile Char.isDigit, c.isDigit = true :=
      List.all_eq_true.mp List.all_takeWhile
    rw [isNumeral] at h
    split at h
    · rename_i hrest
      rw [hrest, List.append_nil] at hsplit
      rw [hsplit] at hwhole
      exact .digits (by simpa using h) hwhole
    · rename_i c fraction hrest
      obtain ⟨⟨rfl, hne⟩, hf⟩ : (c = '.' ∧ fraction ≠ []) ∧ ∀ d ∈ fraction, d.isDigit = true := by
        simpa using h
      rw [← hsplit, hrest]
      exact .decimal hne hwhole hf
  · intro h
    cases h with
    | digits hne hds =>
      rw [isNumeral, List.dropWhile_eq_nil_iff.mpr hds]
      simp [hne]
    | decimal hne hw hf =>
      rw [isNumeral, List.dropWhile_append_of_pos hw]
      simpa [hne] using hf

instance : DecidablePred IsNumeral := fun _ => decidable_of_iff _ isNumeral_iff

/-! ## Pieces -/

/-- Whether two neighbours are in one run. -/
def inOneRun (a b : Char) : Bool :=
  isNumberPart a && isNumberPart b || isNamePart a && isNamePart b

/-- The maximal runs of a source, and each other character by itself. -/
def pieces (source : List Char) : List (List Char) := source.splitBy inOneRun

/-- The kinds that are known by their symbols. -/
def symbolKinds : List Kind :=
  [.operator .add, .operator .sub, .operator .mul, .operator .div, .opening, .closing]

/-- The kind of token that a piece is, `none` for one that is no token. -/
def kindOfPiece? (piece : List Char) : Option Kind :=
  if piece.all isNumberPart then some .number
  else if piece.all isNamePart then some .name
  else symbolKinds.find? fun kind => kind.symbol? = some (String.ofList piece)

/-- The token that a piece is, given the bytes before it. -/
def tokenOfPiece? (start : Nat) (piece : List Char) : Option Token :=
  (kindOfPiece? piece).map fun kind =>
    ⟨kind, String.ofList piece, .ofOffsets start (start + utf8Len piece)⟩

/-- The tokens of pieces, given the bytes before the first. -/
def tokensOfPieces (start : Nat) : List (List Char) → List Token
  | [] => []
  | piece :: rest =>
    (tokenOfPiece? start piece).toList ++ tokensOfPieces (start + utf8Len piece) rest

/-- The tokens of a source's pieces. -/
def cut (source : List Char) : List Token := tokensOfPieces 0 (pieces source)

/-! ## Where a source falls apart -/

section

variable {sort : RunSort} {a b c : Char} {pre run post before piece cs source : List Char}

theorem inOneRun_of_sort (ha : sort.has a = true) (hb : sort.has b = true) :
    inOneRun a b = true := by
  cases sort <;> simp_all [inOneRun, RunSort.has]

theorem inOneRun_comm (a b : Char) : inOneRun a b = inOneRun b a := by
  rw [inOneRun, inOneRun, Bool.and_comm, Bool.and_comm (isNamePart a)]

/-- A character of a sort is in no run with one that is not. -/
theorem inOneRun_eq_false (ha : sort.has a = true) (hb : sort.has b = false) :
    inOneRun a b = false := by
  cases sort with
  | number => simp_all [inOneRun, RunSort.has, isNamePart_eq_false]
  | name => simp_all [inOneRun, RunSort.has, isNumberPart_eq_false]

/-- A separator is in no run. -/
theorem inOneRun_of_mem_separators (h : c ∈ separators) (a : Char) : inOneRun c a = false := by
  have hnumber : isNumberPart c = false := eq_false_of_mem_separators h .number
  have hname : isNamePart c = false := eq_false_of_mem_separators h .name
  rw [inOneRun, hnumber, hname, Bool.false_and, Bool.false_and, Bool.or_false]

/-- Where a run ends, a character of its sort is missing. -/
theorem eq_false_of_inOneRun (ha : sort.has a = true) (h : inOneRun a b = false) :
    sort.has b = false := by
  cases hb : sort.has b with
  | false => rfl
  | true => rw [← h, inOneRun_of_sort ha hb]

theorem flatten_pieces (source : List Char) : (pieces source).flatten = source :=
  List.flatten_splitBy inOneRun source

theorem pieces_append (h : ∀ a ∈ pre.getLast?, ∀ b ∈ post.head?, inOneRun a b = false) :
    pieces (pre ++ post) = pieces pre ++ pieces post :=
  List.splitBy_append h

theorem pieces_of_sort (hne : run ≠ []) (h : ∀ c ∈ run, sort.has c = true) :
    pieces run = [run] := by
  apply List.splitBy_of_isChain hne
  induction run with
  | nil => exact absurd rfl hne
  | cons a run ih =>
    cases run with
    | nil => exact List.isChain_singleton a
    | cons b run =>
      refine List.isChain_cons_cons.mpr ⟨?_, ih (List.cons_ne_nil b run) ?_⟩
      · exact inOneRun_of_sort (h a (by simp)) (h b (by simp))
      · exact fun c hc => h c (List.mem_cons_of_mem a hc)

/-- What follows a run ends it. -/
theorem pieces_run_append (hne : run ≠ []) (h : ∀ c ∈ run, sort.has c = true)
    (hpost : ∀ c ∈ post.head?, sort.has c = false) : pieces (run ++ post) = run :: pieces post := by
  rw [pieces_append, pieces_of_sort hne h, List.singleton_append]
  intro a ha b hb
  exact inOneRun_eq_false (h a (List.mem_of_getLast? ha)) (hpost b hb)

/-- A run ends what it follows. -/
theorem pieces_append_run (hne : run ≠ []) (h : ∀ c ∈ run, sort.has c = true)
    (hpre : ∀ c ∈ pre.getLast?, sort.has c = false) :
    pieces (pre ++ run) = pieces pre ++ [run] := by
  rw [pieces_append, pieces_of_sort hne h]
  intro a ha b hb
  rw [inOneRun_comm]
  exact inOneRun_eq_false (h b (List.mem_of_mem_head? hb)) (hpre a ha)

/-- A character that is in no run is a piece. -/
theorem pieces_concat (hnumber : isNumberPart c = false) (hname : isNamePart c = false)
    (cs : List Char) : pieces (cs ++ [c]) = pieces cs ++ [[c]] := by
  rw [pieces_append]
  · rfl
  · rintro a - b hb
    obtain rfl : c = b := by simpa using hb
    simp [inOneRun, hnumber, hname]

/-- Neighbouring pieces are not in one run. -/
theorem inOneRun_of_pieces {before after : List (List Char)}
    (h : pieces source = before ++ after) :
    ∀ a ∈ before.flatten.getLast?, ∀ b ∈ after.flatten.head?, inOneRun a b = false := by
  have hnil : [] ∉ pieces source := List.nil_notMem_splitBy inOneRun source
  have hchain : (pieces source).IsChain _ := List.isChain_getLast_head_splitBy inOneRun source
  rw [h] at hnil hchain
  intro a ha b hb
  rcases List.eq_nil_or_concat' before with rfl | ⟨before, last, rfl⟩
  · cases ha
  cases after with
  | nil => cases hb
  | cons first after =>
    rw [List.isChain_append] at hchain
    obtain ⟨hlast, hfirst, hboundary⟩ := hchain.2.2 last (by simp) first (by simp)
    rw [List.flatten_append, List.flatten_singleton, List.getLast?_append_of_ne_nil _ hlast,
      List.getLast?_eq_some_getLast hlast, Option.mem_some_iff] at ha
    rw [List.flatten_cons, List.head?_append_of_ne_nil _ hfirst, List.head?_eq_some_head hfirst,
      Option.mem_some_iff] at hb
    rw [← ha, ← hb]
    exact hboundary

/-- The maximal runs of a sort are the pieces that hold characters of it. -/
theorem maximalRun_iff_pieces :
    MaximalRun sort source pre run post ↔ (∀ c ∈ run, sort.has c = true) ∧
      ∃ before after, pieces source = before ++ run :: after ∧ before.flatten = pre ∧
        after.flatten = post := by
  constructor
  · rintro ⟨rfl, hne, h, hpre, hpost⟩
    refine ⟨h, pieces pre, pieces post, ?_, flatten_pieces pre, flatten_pieces post⟩
    rw [List.append_assoc, pieces_append, pieces_run_append hne h hpost]
    intro a ha b hb
    rw [inOneRun_comm]
    refine inOneRun_eq_false (h b ?_) (hpre a ha)
    rw [List.head?_append_of_ne_nil _ hne] at hb
    exact List.mem_of_mem_head? hb
  · rintro ⟨h, before, after, hpieces, rfl, rfl⟩
    have hne : run ≠ [] := List.ne_nil_of_mem_splitBy (r := inOneRun) (l := source) <| by
      change run ∈ pieces source
      simp [hpieces]
    have hsplit : pieces source = (before ++ [run]) ++ after := by simp [hpieces]
    have hhead : run.head hne ∈ (run :: after).flatten.head? := by
      simp [List.head?_append_of_ne_nil _ hne, List.head?_eq_some_head hne]
    have hlast : run.getLast hne ∈ (before ++ [run]).flatten.getLast? := by
      simp [List.getLast?_append_of_ne_nil _ hne, List.getLast?_eq_some_getLast hne]
    refine ⟨by rw [← flatten_pieces source, hpieces]; simp, hne, h, ?_, ?_⟩
    · intro c hc
      refine eq_false_of_inOneRun (h _ (List.head_mem hne)) ?_
      rw [inOneRun_comm]
      exact inOneRun_of_pieces hpieces c hc _ hhead
    · intro c hc
      refine eq_false_of_inOneRun (h _ (List.getLast_mem hne)) ?_
      exact inOneRun_of_pieces hsplit _ hlast c hc

/-! ## Tokens of pieces -/

theorem kindOfPiece?_of_sort (hne : run ≠ []) (h : ∀ c ∈ run, sort.has c = true) :
    kindOfPiece? run = some sort.kind := by
  cases sort with
  | number =>
    have hall : run.all isNumberPart = true := List.all_eq_true.mpr h
    rw [kindOfPiece?, if_pos hall, RunSort.kind]
  | name =>
    have hall : run.all isNamePart = true := List.all_eq_true.mpr h
    have hhead := isNumberPart_eq_false (h _ (List.head_mem hne))
    have hnumber : ¬ run.all isNumberPart = true := fun hc => by
      rw [List.all_eq_true.mp hc _ (List.head_mem hne)] at hhead
      cases hhead
    rw [kindOfPiece?, if_neg hnumber, if_pos hall, RunSort.kind]

theorem kindOfPiece?_eq_number (h : kindOfPiece? piece = some .number) :
    ∀ c ∈ piece, isNumberPart c = true := by
  unfold kindOfPiece? at h
  split at h
  · rename_i hall
    exact List.all_eq_true.mp hall
  · split at h
    · cases h
    · exact absurd (List.mem_of_find?_eq_some h) (by decide)

theorem kindOfPiece?_eq_name (h : kindOfPiece? piece = some .name) :
    piece ≠ [] ∧ ∀ c ∈ piece, isNamePart c = true := by
  unfold kindOfPiece? at h
  split at h
  · cases h
  · rename_i hnumber
    refine ⟨?_, ?_⟩
    · rintro rfl
      exact hnumber rfl
    · split at h
      · rename_i hall
        exact List.all_eq_true.mp hall
      · exact absurd (List.mem_of_find?_eq_some h) (by decide)

theorem tokensOfPieces_append (start : Nat) (xs ys : List (List Char)) :
    tokensOfPieces start (xs ++ ys) =
      tokensOfPieces start xs ++ tokensOfPieces (start + utf8Len xs.flatten) ys := by
  induction xs generalizing start with
  | nil => rfl
  | cons x xs ih =>
    rw [List.cons_append, tokensOfPieces, tokensOfPieces, ih, List.flatten_cons,
      String.utf8Len_append, Nat.add_assoc, List.append_assoc]

/-- A further piece adds its token. -/
theorem cut_append (h : pieces (pre ++ piece) = pieces pre ++ [piece]) :
    cut (pre ++ piece) = cut pre ++ (tokenOfPiece? (utf8Len pre) piece).toList := by
  rw [cut, h, tokensOfPieces_append, flatten_pieces, Nat.zero_add, tokensOfPieces, tokensOfPieces,
    List.append_nil, cut]

/-- A further run adds its token. -/
theorem cut_append_run (hne : run ≠ []) (h : ∀ c ∈ run, sort.has c = true)
    (hpre : ∀ c ∈ pre.getLast?, sort.has c = false) :
    cut (pre ++ run) = cut pre ++ (tokenOfPiece? (utf8Len pre) run).toList :=
  cut_append (pieces_append_run hne h hpre)

/-- A further character that is in no run adds its token, if it is one. -/
theorem cut_concat (hnumber : isNumberPart c = false) (hname : isNamePart c = false)
    (cs : List Char) : cut (cs ++ [c]) = cut cs ++ (tokenOfPiece? (utf8Len cs) [c]).toList :=
  cut_append (pieces_concat hnumber hname cs)

/-- Where a token stands among those of some pieces, its piece stands among
these. -/
theorem exists_piece_of_tokens {start : Nat} {xs : List (List Char)} {us vs : List Token}
    {t : Token} (h : tokensOfPieces start xs = us ++ t :: vs) :
    ∃ before piece after, xs = before ++ piece :: after ∧ tokensOfPieces start before = us ∧
      tokenOfPiece? (start + utf8Len before.flatten) piece = some t ∧
      tokensOfPieces (start + utf8Len before.flatten + utf8Len piece) after = vs := by
  induction xs generalizing start us with
  | nil => simp [tokensOfPieces] at h
  | cons x xs ih =>
    have further {us' : List Token} (hx : (tokenOfPiece? start x).toList ++ us' = us)
        (hrest : tokensOfPieces (start + utf8Len x) xs = us' ++ t :: vs) :
        ∃ before piece after, x :: xs = before ++ piece :: after ∧
          tokensOfPieces start before = us ∧
          tokenOfPiece? (start + utf8Len before.flatten) piece = some t ∧
          tokensOfPieces (start + utf8Len before.flatten + utf8Len piece) after = vs := by
      obtain ⟨before, piece, after, rfl, hbefore, hpiece, hafter⟩ := ih hrest
      refine ⟨x :: before, piece, after, rfl, by rw [tokensOfPieces, hbefore, hx], ?_, ?_⟩
      · rw [List.flatten_cons, String.utf8Len_append, ← Nat.add_assoc]
        exact hpiece
      · rw [List.flatten_cons, String.utf8Len_append, ← Nat.add_assoc]
        exact hafter
    rw [tokensOfPieces] at h
    cases hx : tokenOfPiece? start x with
    | none =>
      rw [hx] at h further
      exact further rfl h
    | some u =>
      rw [hx] at h further
      cases us with
      | nil =>
        obtain ⟨rfl, hrest⟩ := List.cons.inj h
        exact ⟨[], x, xs, rfl, rfl, hx, hrest⟩
      | cons u' us =>
        obtain ⟨rfl, hrest⟩ := List.cons.inj h
        exact further rfl hrest

/-- Every token of a source is that of one of its pieces. -/
theorem exists_piece_of_mem_cut {t : Token} (h : t ∈ cut source) :
    ∃ before piece after, pieces source = before ++ piece :: after ∧
      tokenOfPiece? (utf8Len before.flatten) piece = some t := by
  obtain ⟨us, vs, hsplit⟩ := List.append_of_mem h
  obtain ⟨before, piece, after, hpieces, -, hpiece, -⟩ := exists_piece_of_tokens hsplit
  rw [Nat.zero_add] at hpiece
  exact ⟨before, piece, after, hpieces, hpiece⟩

/-- And every piece that is a token is one of the source's. -/
theorem mem_cut_of_piece {before after : List (List Char)} {t : Token}
    (h : pieces source = before ++ piece :: after)
    (ht : tokenOfPiece? (utf8Len before.flatten) piece = some t) : t ∈ cut source := by
  rw [cut, h, tokensOfPieces_append, tokensOfPieces, Nat.zero_add, ht]
  simp

/-- The numbers among the tokens of a source are its runs of digits and
points. -/
theorem maximalRun_of_mem_cut {t : Token} (h : t ∈ cut source) (hk : t.kind = .number) :
    ∃ pre run post, MaximalRun .number source pre run post ∧ t.text = String.ofList run := by
  obtain ⟨before, piece, after, hpieces, hpiece⟩ := exists_piece_of_mem_cut h
  obtain ⟨kind, hkind, rfl⟩ := Option.map_eq_some_iff.mp hpiece
  cases hk
  exact ⟨_, piece, _, maximalRun_iff_pieces.mpr
    ⟨kindOfPiece?_eq_number hkind, before, after, hpieces, rfl, rfl⟩, rfl⟩

end

end Calculator
