import Calculator.Proofs.Formula.Brackets
import Calculator.Proofs.Token.Pieces

/-!
# Places in a source

What stands where the spans of tokens say.

`IsSlice` ties a span to the text that it cuts out of a source.  In a source
that is not too long for its offsets, the span of a token cuts out the text of
the token (`isSlice_of_mem_cut`), that of two brackets which close each other a
text that is `Paired` between them (`isSlice_of_isGroup`), and the span from one
token to a later one the text from there to there (`IsSlice.through`).

Brackets are counted among the tokens elsewhere, and in texts here
(`textDepth`).  Both counts come to the same, for every bracket of a text is a
piece by itself, and so a token (`brackets_eq`).
-/

namespace Calculator

open String (utf8Len)

/-- `span` cuts `slice` out of `source`, between `pre` and `post`. -/
structure IsSlice (source : List Char) (span : Span) (pre slice post : List Char) : Prop where
  split : source = pre ++ slice ++ post
  start_eq : span.start = utf8Len pre
  stop_eq : span.stop = utf8Len (pre ++ slice)

/-- Neither end of a span is after that of the other. -/
def Span.Leads (span span' : Span) : Prop := span.start ≤ span'.start ∧ span.stop ≤ span'.stop

/-- The opening brackets of a text less its closing ones. -/
def textDepth (cs : List Char) : Int := (cs.count '(' : Int) - cs.count ')'

/-- Every bracket of a text has its partner in the text. -/
def Paired (cs : List Char) : Prop := (∀ us, us <+: cs → 0 ≤ textDepth us) ∧ textDepth cs = 0

/-! ## Slices -/

/-- A string may be cut between two of its characters. -/
theorem isValid_of_split {text : String} {pre post : List Char} (h : text.toList = pre ++ post) :
    String.Pos.Raw.IsValid text ⟨utf8Len pre⟩ := by
  refine String.Pos.Raw.isValid_iff_exists_append.mpr ⟨.ofList pre, .ofList post, ?_, ?_⟩
  · rw [← String.ofList_append, ← h, String.ofList_toList]
  · rw [String.rawEndPos, String.utf8ByteSize_ofList]

/-- Of two places in a text, the one with fewer bytes before it comes first. -/
theorem exists_append_of_utf8Len_le {as bs cs ds : List Char} (h : as ++ bs = cs ++ ds)
    (hle : utf8Len as ≤ utf8Len cs) : ∃ more, cs = as ++ more := by
  rcases List.append_eq_append_iff.mp h with ⟨more, rfl, -⟩ | ⟨more, rfl, -⟩
  · exact ⟨more, rfl⟩
  · rw [String.utf8Len_append] at hle
    have hnil : more = [] := String.utf8Len_eq_zero.mp (by omega)
    exact ⟨[], by rw [hnil, List.append_nil, List.append_nil]⟩

namespace IsSlice

variable {source pre pre' slice slice' post post' : List Char} {span span' : Span}

theorem ordered (h : IsSlice source span pre slice post) : span.start ≤ span.stop := by
  rw [h.start_eq, h.stop_eq, String.utf8Len_append]
  omega

theorem inside (h : IsSlice source span pre slice post) : span.stop ≤ utf8Len source := by
  rw [h.stop_eq, h.split, String.utf8Len_append (pre ++ slice)]
  omega

/-- Two slices, and what is between them. -/
theorem hull {mid : List Char} (h : IsSlice source span pre slice post)
    (h' : IsSlice source span' (pre ++ slice ++ mid) slice' post') :
    IsSlice source (span.hull span') pre (slice ++ mid ++ slice') post' := by
  have hslice := String.utf8Len_append pre slice
  have hmid := String.utf8Len_append (pre ++ slice) mid
  have hslice' := String.utf8Len_append (pre ++ slice ++ mid) slice'
  refine ⟨by simp [h'.split], ?_, ?_⟩
  · rw [← h.start_eq]
    refine Nat.min_eq_left ?_
    rw [h.start_eq, h'.start_eq]
    omega
  · rw [List.append_assoc slice, ← List.append_assoc, ← List.append_assoc, ← h'.stop_eq]
    refine Nat.max_eq_right ?_
    rw [h.stop_eq, h'.stop_eq]
    omega

/-- The text from one slice to a later one begins with the first of them and ends
with the other. -/
theorem through (h : IsSlice source span pre slice post)
    (h' : IsSlice source span' pre' slice' post') (hleads : span.Leads span') :
    ∃ whole, IsSlice source ⟨span.start, span'.stop⟩ pre whole post' ∧ slice <+: whole ∧
      slice' <:+ whole := by
  have hsplit : pre ++ (slice ++ post) = pre' ++ (slice' ++ post') := by
    rw [← List.append_assoc, ← h.split, h'.split, List.append_assoc]
  have hstart : utf8Len pre ≤ utf8Len pre' := by
    rw [← h.start_eq, ← h'.start_eq]
    exact hleads.1
  obtain ⟨more, rfl⟩ := exists_append_of_utf8Len_le hsplit hstart
  have hrest : slice ++ post = (more ++ slice') ++ post' := by
    simpa using hsplit
  have hstop : utf8Len slice ≤ utf8Len (more ++ slice') := by
    have hle := hleads.2
    rw [h.stop_eq, h'.stop_eq, List.append_assoc, String.utf8Len_append pre,
      String.utf8Len_append pre] at hle
    exact Nat.le_of_add_le_add_left hle
  obtain ⟨rest, hwhole⟩ := exists_append_of_utf8Len_le hrest hstop
  refine ⟨more ++ slice', ⟨?_, h.start_eq, ?_⟩, ⟨rest, hwhole.symm⟩, List.suffix_append more slice'⟩
  · rw [h'.split, List.append_assoc pre]
  · rw [h'.stop_eq, List.append_assoc]

/-! ### Slices of strings -/

variable {text : String}

theorem start_valid (h : IsSlice text.toList span pre slice post) :
    String.Pos.Raw.IsValid text ⟨span.start⟩ := by
  rw [h.start_eq]
  exact isValid_of_split (by rw [h.split, List.append_assoc])

theorem stop_valid (h : IsSlice text.toList span pre slice post) :
    String.Pos.Raw.IsValid text ⟨span.stop⟩ := by
  rw [h.stop_eq]
  exact isValid_of_split h.split

theorem extract_eq (h : IsSlice text.toList span pre slice post) :
    String.Pos.Raw.extract text ⟨span.start⟩ ⟨span.stop⟩ = .ofList slice := by
  have hextract := String.extract_of_valid pre slice post
  rw [← h.split, String.ofList_toList, ← String.utf8Len_append] at hextract
  rw [h.start_eq, h.stop_eq]
  exact hextract

end IsSlice

/-! ## Brackets -/

/-- The character of a bracket. -/
def Kind.bracket? : Kind → Option Char
  | opening => some '('
  | closing => some ')'
  | number | name | operator _ => none

/-- The characters of brackets. -/
def isBracketChar (c : Char) : Bool := c = '(' || c = ')'

section

variable {source piece cs : List Char} {ts : List Token} {t : Token} {start : Nat}

theorem textDepth_filter (cs : List Char) : textDepth (cs.filter isBracketChar) = textDepth cs := by
  rw [textDepth, textDepth, List.count_filter rfl, List.count_filter rfl]

theorem textDepth_brackets (ts : List Token) :
    textDepth (ts.filterMap (·.kind.bracket?)) = bracketDepth ts := by
  have hopening : ∀ t : Token,
      ((t.kind.bracket?.map (· == '(')).getD false) = decide (t.kind = .opening) := by
    rintro ⟨kind, text, span⟩
    cases kind <;> rfl
  have hclosing : ∀ t : Token,
      ((t.kind.bracket?.map (· == ')')).getD false) = decide (t.kind = .closing) := by
    rintro ⟨kind, text, span⟩
    cases kind <;> rfl
  simp only [textDepth, bracketDepth, List.count, List.countP_filterMap, hopening, hclosing]

/-- The text of an operator or a bracket is its symbol. -/
theorem kindOfPiece?_symbol {kind : Kind} {symbol : String} (h : kindOfPiece? piece = some kind)
    (hs : kind.symbol? = some symbol) : String.ofList piece = symbol := by
  unfold kindOfPiece? at h
  split at h
  · cases h
    cases hs
  · split at h
    · cases h
      cases hs
    · have hfound := List.find?_some h
      rw [decide_eq_true_iff, hs] at hfound
      exact (Option.some.inj hfound).symm

theorem piece_eq_of_symbol {symbol : String} (h : tokenOfPiece? start piece = some t)
    (hs : t.kind.symbol? = some symbol) : piece = symbol.toList := by
  obtain ⟨kind, hkind, rfl⟩ := Option.map_eq_some_iff.mp h
  rw [← kindOfPiece?_symbol hkind hs, String.toList_ofList]

/-- A piece and the token that it may be have the same brackets. -/
theorem brackets_of_piece (hpiece : piece ∈ pieces source) (start : Nat) :
    (tokenOfPiece? start piece).toList.filterMap (·.kind.bracket?) = piece.filter isBracketChar := by
  by_cases hb : ∃ c ∈ piece, isBracketChar c = true
  · -- The piece is that bracket, and both sides can be computed.
    obtain ⟨c, hc, hb⟩ := hb
    rw [isBracketChar, Bool.or_eq_true_iff, decide_eq_true_iff, decide_eq_true_iff] at hb
    rcases hb with rfl | rfl
    · rw [eq_singleton_of_mem_pieces hpiece hc (by decide)]
      rfl
    · rw [eq_singleton_of_mem_pieces hpiece hc (by decide)]
      rfl
  · have hnone : piece.filter isBracketChar = [] :=
      List.filter_eq_nil_iff.mpr fun c hc hbc => hb ⟨c, hc, hbc⟩
    rw [hnone]
    cases ht : tokenOfPiece? start piece with
    | none => rfl
    | some t =>
      have hbracket : t.kind.bracket? = none := by
        cases hk : t.kind with
        | number | name | operator => rfl
        | opening =>
          have hpiece := piece_eq_of_symbol ht (by rw [hk]; rfl)
          exact absurd ⟨'(', by rw [hpiece]; decide, rfl⟩ hb
        | closing =>
          have hpiece := piece_eq_of_symbol ht (by rw [hk]; rfl)
          exact absurd ⟨')', by rw [hpiece]; decide, rfl⟩ hb
      simp [hbracket]

/-- The brackets of a text are those of its tokens. -/
theorem brackets_eq {xs : List (List Char)} (h : ∀ piece ∈ xs, piece ∈ pieces source)
    (start : Nat) :
    (tokensOfPieces start xs).filterMap (·.kind.bracket?) = xs.flatten.filter isBracketChar := by
  induction xs generalizing start with
  | nil => rfl
  | cons x xs ih =>
    rw [tokensOfPieces, List.filterMap_append, brackets_of_piece (h x List.mem_cons_self),
      ih fun piece hpiece => h piece (List.mem_cons_of_mem x hpiece), List.flatten_cons,
      List.filter_append]

/-- A text is paired when its tokens are balanced. -/
theorem paired_of_balanced {xs : List (List Char)} (h : ∀ piece ∈ xs, piece ∈ pieces source)
    (hts : Balanced (tokensOfPieces start xs)) : Paired xs.flatten := by
  have hbrackets := brackets_eq h start
  constructor
  · intro us hus
    have hprefix := hus.filter isBracketChar
    rw [← hbrackets, List.prefix_filterMap_iff] at hprefix
    obtain ⟨vs, hvs, heq⟩ := hprefix
    rw [← textDepth_filter, heq, textDepth_brackets]
    exact hts.1 vs hvs
  · rw [← textDepth_filter, ← hbrackets, textDepth_brackets, hts.2]

end

/-! ## Places of tokens -/

section

variable {source piece : List Char} {before after : List (List Char)} {t o c : Token}
  {us inner vs : List Token}

/-- Offsets in a source that is not too long are recorded as they are. -/
theorem isSlice_ofOffsets {pre slice post : List Char} (hsize : utf8Len source ≤ Span.maxOffset)
    (h : source = pre ++ slice ++ post) :
    IsSlice source (.ofOffsets (utf8Len pre) (utf8Len (pre ++ slice))) pre slice post := by
  have hlen : utf8Len source = utf8Len pre + utf8Len slice + utf8Len post := by
    rw [h, String.utf8Len_append, String.utf8Len_append]
  have hslice := String.utf8Len_append pre slice
  rw [Span.ofOffsets_of_le (by omega) (by omega)]
  exact ⟨h, rfl, rfl⟩

theorem isSlice_of_piece (hsize : utf8Len source ≤ Span.maxOffset)
    (hpieces : pieces source = before ++ piece :: after)
    (ht : tokenOfPiece? (utf8Len before.flatten) piece = some t) :
    IsSlice source t.span before.flatten piece after.flatten := by
  obtain ⟨kind, -, rfl⟩ := Option.map_eq_some_iff.mp ht
  have hsource : source = before.flatten ++ piece ++ after.flatten := by
    rw [← flatten_pieces source, hpieces]
    simp
  rw [← String.utf8Len_append]
  exact isSlice_ofOffsets hsize hsource

/-- The span of a token cuts out its text. -/
theorem isSlice_of_mem_cut (hsize : utf8Len source ≤ Span.maxOffset) (ht : t ∈ cut source) :
    ∃ pre post, IsSlice source t.span pre t.text.toList post := by
  obtain ⟨before, piece, after, hpieces, hpiece⟩ := exists_piece_of_mem_cut ht
  have htext : t.text = String.ofList piece := by
    obtain ⟨kind, -, rfl⟩ := Option.map_eq_some_iff.mp hpiece
    rfl
  rw [htext, String.toList_ofList]
  exact ⟨_, _, isSlice_of_piece hsize hpieces hpiece⟩

/-- The span of an operator or a bracket cuts out its symbol. -/
theorem isSlice_of_symbol {symbol : String} (hsize : utf8Len source ≤ Span.maxOffset)
    (ht : t ∈ cut source) (hs : t.kind.symbol? = some symbol) :
    ∃ pre post, IsSlice source t.span pre symbol.toList post := by
  obtain ⟨before, piece, after, hpieces, hpiece⟩ := exists_piece_of_mem_cut ht
  rw [← piece_eq_of_symbol hpiece hs]
  exact ⟨_, _, isSlice_of_piece hsize hpieces hpiece⟩

/-- The span of two brackets that close each other cuts out the text from the
one through the other. -/
theorem isSlice_of_isGroup (hsize : utf8Len source ≤ Span.maxOffset)
    (hg : IsGroup (cut source) us o inner c vs) :
    ∃ pre mid post, IsSlice source (o.span.hull c.span) pre ('(' :: (mid ++ [')'])) post ∧
      Paired mid := by
  obtain ⟨before, first, rest, hpieces, -, ho, hrest⟩ := exists_piece_of_tokens hg.split
  obtain ⟨mid, last, after, rfl, hmid, hc, -⟩ := exists_piece_of_tokens hrest
  rw [Nat.zero_add] at ho hc
  have hfirst : first = "(".toList := piece_eq_of_symbol ho (by rw [hg.opens]; rfl)
  have hlast : last = ")".toList := piece_eq_of_symbol hc (by rw [hg.closes]; rfl)
  subst hfirst hlast
  have hsplit : pieces source = (before ++ "(".toList :: mid) ++ ")".toList :: after := by
    rw [hpieces]
    simp
  have hoffset : utf8Len before.flatten + utf8Len "(".toList + utf8Len mid.flatten =
      utf8Len (before ++ "(".toList :: mid).flatten := by
    rw [List.flatten_append, List.flatten_cons, String.utf8Len_append, String.utf8Len_append,
      Nat.add_assoc]
  rw [hoffset] at hc
  have hopen := isSlice_of_piece hsize hpieces ho
  have hclose := isSlice_of_piece hsize hsplit hc
  rw [List.flatten_append, List.flatten_cons, ← List.append_assoc] at hclose
  refine ⟨_, mid.flatten, _, hopen.hull hclose, ?_⟩
  have hmem : ∀ piece ∈ mid, piece ∈ pieces source := by
    intro piece hpiece
    simp [hpieces, hpiece]
  exact paired_of_balanced hmem (hmid ▸ hg.balanced)

/-! ## The order of the places -/

theorem span_of_mem_tokensOfPieces {xs : List (List Char)} {start : Nat}
    (h : t ∈ tokensOfPieces start xs) :
    ∃ offset length, start ≤ offset ∧ t.span = .ofOffsets offset (offset + length) := by
  obtain ⟨us, vs, hsplit⟩ := List.append_of_mem h
  obtain ⟨before, piece, after, -, -, hpiece, -⟩ := exists_piece_of_tokens hsplit
  obtain ⟨kind, -, rfl⟩ := Option.map_eq_some_iff.mp hpiece
  exact ⟨_, _, Nat.le_add_right start _, rfl⟩

/-- The tokens of a source lie in it one after the other. -/
theorem pairwise_leads (start : Nat) (xs : List (List Char)) :
    (tokensOfPieces start xs).Pairwise fun t u => t.span.Leads u.span := by
  induction xs generalizing start with
  | nil => exact List.Pairwise.nil
  | cons x xs ih =>
    refine List.pairwise_append.mpr ⟨?_, ih _, fun t ht u hu => ?_⟩
    · cases tokenOfPiece? start x with
      | none => exact List.Pairwise.nil
      | some t => exact List.pairwise_singleton _ t
    · obtain ⟨kind, -, rfl⟩ := Option.map_eq_some_iff.mp (Option.mem_toList.mp ht)
      obtain ⟨offset, length, hle, hspan⟩ := span_of_mem_tokensOfPieces hu
      rw [hspan]
      constructor
      · show min start Span.maxOffset ≤ min offset Span.maxOffset
        omega
      · show min (start + utf8Len x) Span.maxOffset ≤ min (offset + length) Span.maxOffset
        omega

end

end Calculator
