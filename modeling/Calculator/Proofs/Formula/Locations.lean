import Calculator.Proofs.Formula.Conservation
import Calculator.Proofs.Formula.Lifecycle
import Calculator.Proofs.Token.Places

/-!
# Where errors are

The span of an error cuts out of the source what the error is about.

`Shows` lists for every kind of error what is found there, `Shown` ties that to
the span, and `Located` says the same of strings: the ends of the span are in the
source, in their order, and not inside a character.  `located_of_error` says that all errors between a
source and its value are located.

Errors of the scan are faults of the source, which come with their places
(`shown_of_fault`).  An error of the assembly is at a token, at a group of
tokens, or at all of them (`shown_of_ofTokens`).  For a lack of operands the
token must be looked for among the operators that wait
(`exists_operator_of_ofTokens`).
-/

namespace Calculator

open Assembly
open String (utf8Len)

/-- What is found at the place of an error: `slice`, between `pre` and `post`. -/
inductive Shows (source : String) : (pre slice post : List Char) → Error → Prop
  | strangeChar {pre post : List Char} {c : Char} {span : Span} :
      Shows source pre [c] post (.scan ⟨.strangeChar c, span⟩)
  | repeatedPoint {pre post : List Char} {span : Span} :
      Shows source pre ['.'] post (.scan ⟨.repeatedPoint, span⟩)
  /-- A maximal run whose only point is its last character. -/
  | malformedNumber {pre whole post : List Char} {span : Span}
      (hrun : MaximalRun .number source.toList pre (whole ++ ['.']) post) (hwhole : '.' ∉ whole) :
      Shows source pre (whole ++ ['.']) post (.scan ⟨.malformedNumber, span⟩)
  /-- A maximal run with an underscore. -/
  | malformedName {pre run post : List Char} {span : Span}
      (hrun : MaximalRun .name source.toList pre run post) (hmem : '_' ∈ run) :
      Shows source pre run post (.scan ⟨.malformedName, span⟩)
  | missingOperands {pre post : List Char} {op : Operation} {found : Nat} {span : Span} :
      Shows source pre op.symbol.toList post
        (.structural ⟨.missingOperands (.operator op) found, span⟩)
  | unmatchedClosing {pre post : List Char} {span : Span} :
      Shows source pre [')'] post (.structural ⟨.unmatchedClosing, span⟩)
  | unclosedOpening {pre post : List Char} {span : Span} :
      Shows source pre ['('] post (.structural ⟨.unclosedOpening, span⟩)
  /-- An opening bracket through the one that closes it. -/
  | emptyGroup {pre mid post : List Char} {span : Span} (hmid : Paired mid) :
      Shows source pre ('(' :: (mid ++ [')'])) post (.structural ⟨.emptyGroup, span⟩)
  /-- An opening bracket through the one that closes it. -/
  | leftoverInGroup {pre mid post : List Char} {count : Nat} {span : Span} (hmid : Paired mid) :
      Shows source pre ('(' :: (mid ++ [')'])) post (.structural ⟨.leftoverOperands count, span⟩)
  /-- Everything from the first token to the last. -/
  | leftover {pre slice post : List Char} {dialect : Dialect} {ts : List Token}
      {first last : Token} {count : Nat} (hscan : scan dialect source = .ok ts)
      (hfirst : first ∈ ts.head?) (hlast : last ∈ ts.getLast?)
      (hbegins : first.text.toList <+: slice) (hends : last.text.toList <:+ slice) :
      Shows source pre slice post
        (.structural ⟨.leftoverOperands count, ⟨first.span.start, last.span.stop⟩⟩)
  /-- Nothing, at the start of a source without tokens. -/
  | nothing {post : List Char} {dialect : Dialect} {count : Nat}
      (hscan : scan dialect source = .ok []) :
      Shows source [] [] post (.structural ⟨.leftoverOperands count, ⟨0, 0⟩⟩)
  | unresolvedName {pre post : List Char} {name : String} {span : Span} :
      Shows source pre name.toList post (.evaluation ⟨.unresolvedName name, span⟩)

/-- The span of an error cuts out of the source what shows the error. -/
inductive Shown (source : String) (e : Error) : Prop
  | intro {pre slice post : List Char} (hslice : IsSlice source.toList e.span pre slice post)
      (hshows : Shows source pre slice post e) : Shown source e

/-- The span of an error can be cut out of the source as a string, and shows the
error. -/
structure Located (source : String) (e : Error) : Prop where
  ordered : e.span.start ≤ e.span.stop
  inside : e.span.stop ≤ source.utf8ByteSize
  start_valid : String.Pos.Raw.IsValid source ⟨e.span.start⟩
  stop_valid : String.Pos.Raw.IsValid source ⟨e.span.stop⟩
  shows : ∃ pre slice post, source.toList = pre ++ slice ++ post ∧ utf8Len pre = e.span.start ∧
    String.Pos.Raw.extract source ⟨e.span.start⟩ ⟨e.span.stop⟩ = .ofList slice ∧
    Shows source pre slice post e

/-! ## Faults of the source -/

section

variable {dialect : Dialect} {source : String} {ts : List Token}

theorem shown_of_fault {offset : Nat} {context : ScanContext} {e : ScanError}
    (hsize : utf8Len source.toList ≤ Span.maxOffset)
    (h : Fault dialect source.toList offset context e) :
    Shown source (.scan e) := by
  cases h with
  | @strange pre post c hsource hc =>
    have hsplit : source.toList = pre ++ [c] ++ post := by simp [hsource]
    have hlength : utf8Len (pre ++ [c]) = utf8Len pre + c.utf8Size := by
      rw [String.utf8Len_append, String.utf8Len_cons, String.utf8Len_nil, Nat.zero_add]
    exact ⟨hlength ▸ isSlice_ofOffsets hsize hsplit, .strangeChar⟩
  | @point pre first second third post hrun hfirst hsecond =>
    have hsplit : source.toList =
        pre ++ (first ++ '.' :: second) ++ ['.'] ++ (third ++ post) := by simp [hrun.split]
    have hlength : utf8Len (pre ++ (first ++ '.' :: second) ++ ['.']) =
        utf8Len (pre ++ (first ++ '.' :: second)) + 1 := String.utf8Len_append _ ['.']
    exact ⟨hlength ▸ isSlice_ofOffsets hsize hsplit, .repeatedPoint⟩
  | run hrun hbad =>
    refine ⟨isSlice_ofOffsets hsize hrun.split, ?_⟩
    cases hbad with
    | number hwhole => exact .malformedNumber hrun hwhole
    | name hmem => exact .malformedName hrun hmem

/-! ## Faults of the assembly -/

/-- A reduction fails at an operator that waits. -/
theorem exists_waiting_of_reduce {p : Nat} {w : List Waiting} {xs : Stack Expr}
    {e : StructureError} (h : reduce p w xs = .error e) :
    ∃ op t found, .operator op t ∈ w ∧ e = ⟨.missingOperands t.kind found, t.span⟩ := by
  induction w generalizing xs with
  | nil => cases h
  | cons x w ih =>
    cases x with
    | group bracket height => cases h
    | operator op t =>
      rcases (reduce_operator_eq_error h).2 with hj | ⟨zs, -, hr⟩
      · have hlow := (lacksOperands_of_join hj).2
        rw [join_of_lt (xs.height_eq ▸ hlow)] at hj
        exact ⟨op, t, _, List.mem_cons_self, (Except.error.inj hj).symm⟩
      · obtain ⟨op', t', found, hmem, he⟩ := ih hr
        exact ⟨op', t', found, List.mem_cons_of_mem _ hmem, he⟩

/-- An operator that waits is one of the tokens taken. -/
theorem mem_of_waiting {a : Assembly} {op : Operation} {t : Token} (h : takeAll {} ts = .ok a)
    (hw : .operator op t ∈ a.waiting) : t ∈ ts ∧ ∃ op', t.kind = .operator op' := by
  have hheld : t ∈ heldOperators a.waiting a.operands.items :=
    List.mem_append_right _ (List.mem_filterMap.mpr ⟨_, hw, rfl⟩)
  have hmem := (heldOperators_of_takeAll h).mem_iff.mp hheld
  obtain ⟨ht, hoperator⟩ := List.mem_filter.mp hmem
  exact ⟨ht, Kind.isOperator_iff.mp hoperator⟩

theorem FirstBadGroup.not_lacksOperands {e : StructureError} (h : FirstBadGroup ts e) :
    ¬ e.fault.LacksOperands := by
  obtain ⟨pre, o, inner, c, post, -, -, -, rfl⟩ := h
  rintro ⟨operator, found, hfault⟩
  unfold surplusError at hfault
  split at hfault <;> cases hfault

/-- Operands are lacking at an operator among the tokens. -/
theorem exists_operator_of_ofTokens {e : StructureError} (h : Formula.ofTokens ts = .error e)
    (he : e.fault.LacksOperands) :
    ∃ t ∈ ts, ∃ op found, t.kind = .operator op ∧
      e = ⟨.missingOperands (.operator op) found, t.span⟩ := by
  -- Whether a token is taken or the tokens have ended, what fails is a reduction.
  have hreduce {pre : List Token} {a : Assembly} {p : Nat} (hpre : takeAll {} pre = .ok a)
      (hr : reduce p a.waiting a.operands = .error e) :
      ∃ t ∈ pre, ∃ op found, t.kind = .operator op ∧
        e = ⟨.missingOperands (.operator op) found, t.span⟩ := by
    obtain ⟨op, t, found, hw, rfl⟩ := exists_waiting_of_reduce hr
    obtain ⟨ht, op', hk⟩ := mem_of_waiting hpre hw
    exact ⟨t, ht, op', found, hk, by rw [hk]⟩
  unfold Formula.ofTokens at h
  cases hts : takeAll {} ts with
  | error e' =>
    rw [hts] at h
    obtain rfl : e' = e := Except.error.inj h
    obtain ⟨pre, u, post, a, rfl, hpre, hu⟩ := takeAll_eq_error hts
    have hfailed : ∃ p, reduce p a.waiting a.operands = .error e' := by
      rcases take_eq_error hu with ⟨op, -, hr⟩ | ⟨-, hr | ⟨-, rfl⟩⟩
      · exact ⟨_, hr⟩
      · exact ⟨_, hr⟩
      · exact absurd he fun ⟨_, _, hfault⟩ => nomatch hfault
    obtain ⟨p, hr⟩ := hfailed
    obtain ⟨t, ht, hrest⟩ := hreduce hpre hr
    exact ⟨t, List.mem_append_left _ ht, hrest⟩
  | ok a =>
    rw [hts] at h
    rcases finish_eq_error h with hr | ⟨o, height, rest, xs, -, rfl⟩ | ⟨xs, -, hb | ⟨-, -, rfl⟩⟩
    · exact hreduce hts hr
    · exact absurd he fun ⟨_, _, hfault⟩ => nomatch hfault
    · have hnoted := (tracks_of_takeAll hts).badGroup
      rw [hb] at hnoted
      exact absurd he (FirstBadGroup.not_lacksOperands hnoted)
    · exact absurd he fun ⟨_, _, hfault⟩ => nomatch hfault

/-- The extent of tokens that lie one after the other is from the first to the
last. -/
theorem extent?_of_pairwise {first last : Token}
    (hts : ts.Pairwise fun t u => t.span.Leads u.span) (hfirst : first ∈ ts.head?)
    (hlast : last ∈ ts.getLast?) : extent? ts = some ⟨first.span.start, last.span.stop⟩ := by
  induction ts using List.reverseRecOn generalizing last with
  | nil => cases hfirst
  | append_singleton ts t ih =>
    obtain rfl : t = last := by simpa using hlast
    rw [extent?_concat]
    rcases List.eq_nil_or_concat' ts with rfl | ⟨us, u, rfl⟩
    · obtain rfl : t = first := by simpa using hfirst
      rfl
    · obtain ⟨hus, -, hleads⟩ := List.pairwise_append.mp hts
      have hfirst' : first ∈ (us ++ [u]).head? := by
        rwa [List.head?_append_of_ne_nil _ (by simp)] at hfirst
      have hlast' : u ∈ (us ++ [u]).getLast? := by simp
      have hstart := (hleads first (List.mem_of_mem_head? hfirst') t List.mem_cons_self).1
      have hstop := (hleads u (List.mem_of_getLast? hlast') t List.mem_cons_self).2
      rw [ih hus hfirst' hlast']
      simp [Span.hull, Nat.min_eq_left hstart, Nat.max_eq_right hstop]

/-- The extent of the tokens is cut out from the first to the last. -/
theorem shown_leftover (hsize : utf8Len source.toList ≤ Span.maxOffset)
    (hscan : scan dialect source = .ok ts) (count : Nat) :
    Shown source (.structural ⟨.leftoverOperands count, extentOf ts⟩) := by
  have hcut := (acceptable_of_scan hscan).2
  have hpairwise : ts.Pairwise fun t u => t.span.Leads u.span :=
    hcut ▸ pairwise_leads 0 (pieces source.toList)
  cases ts with
  | nil =>
    have hslice : IsSlice source.toList ⟨0, 0⟩ [] [] source.toList := ⟨rfl, rfl, rfl⟩
    exact ⟨hslice, .nothing hscan⟩
  | cons first rest =>
    have hmem := List.getLast_mem (List.cons_ne_nil first rest)
    have hlast := Option.mem_def.mpr (List.getLast?_eq_some_getLast (List.cons_ne_nil first rest))
    generalize (first :: rest).getLast _ = last at hmem hlast
    rw [extentOf, extent?_of_pairwise hpairwise rfl hlast]
    obtain ⟨pre, post, hslice⟩ := isSlice_of_mem_cut hsize (hcut ▸ List.mem_cons_self)
    obtain ⟨pre', post', hslice'⟩ := isSlice_of_mem_cut hsize (hcut ▸ hmem)
    have hleads : first.span.Leads last.span := by
      rcases List.mem_cons.mp hmem with rfl | hrest
      · exact ⟨Nat.le_refl _, Nat.le_refl _⟩
      · exact (List.pairwise_cons.mp hpairwise).1 last hrest
    obtain ⟨whole, hwhole, hbegins, hends⟩ := hslice.through hslice' hleads
    exact ⟨hwhole, .leftover hscan rfl hlast hbegins hends⟩

theorem shown_of_ofTokens {e : StructureError} (hsize : utf8Len source.toList ≤ Span.maxOffset)
    (hscan : scan dialect source = .ok ts) (h : Formula.ofTokens ts = .error e) :
    Shown source (.structural e) := by
  obtain ⟨-, rfl⟩ := acceptable_of_scan hscan
  have houtcome := outcome_ofTokens (cut source.toList)
  rw [h] at houtcome
  cases houtcome with
  | lacking he =>
    obtain ⟨t, ht, op, found, hk, rfl⟩ := exists_operator_of_ofTokens h he
    obtain ⟨pre, post, hslice⟩ := isSlice_of_symbol hsize ht (by rw [hk]; rfl)
    exact ⟨hslice, .missingOperands⟩
  | @unmatched before after c hts hc hpre =>
    have ht : c ∈ cut source.toList := by simp [hts]
    obtain ⟨pre, post, hslice⟩ := isSlice_of_symbol hsize ht (by rw [hc]; rfl)
    exact ⟨hslice, .unmatchedClosing⟩
  | @unclosed before after o hts ho hpre hpost =>
    have ht : o ∈ cut source.toList := by simp [hts]
    obtain ⟨pre, post, hslice⟩ := isSlice_of_symbol hsize ht (by rw [ho]; rfl)
    exact ⟨hslice, .unclosedOpening⟩
  | badGroup hts hbad =>
    obtain ⟨us, o, inner, c, vs, hg, -, -, rfl⟩ := hbad
    obtain ⟨pre, mid, post, hslice, hmid⟩ := isSlice_of_isGroup hsize hg
    refine ⟨hslice, ?_⟩
    unfold surplusError
    split
    · exact .emptyGroup hmid
    · exact .leftoverInGroup hmid
  | leftover => exact shown_leftover hsize hscan _

/-! ## Errors -/

theorem shown_of_ofSource {e : Error} (hsize : utf8Len source.toList ≤ Span.maxOffset)
    (h : Formula.ofSource dialect source = .error e) : Shown source e := by
  have houtcome := sourceOutcome dialect source
  rw [h] at houtcome
  cases houtcome with
  | scan hscan =>
    obtain ⟨offset, hfault, -⟩ := firstFault_of_scan hscan
    exact shown_of_fault hsize hfault
  | structural hscan hts => exact shown_of_ofTokens hsize hscan hts

/-- What keeps the formula of a source from having a value is one of its names. -/
theorem shown_of_evaluate {f : Formula} {e : EvaluationError}
    (hsize : utf8Len source.toList ≤ Span.maxOffset)
    (h : Formula.ofSource dialect source = .ok f) (he : f.evaluate = .error e) :
    Shown source (.evaluation e) := by
  obtain ⟨ts, hscan, hts⟩ := ofSource_eq_ok_iff.mp h
  rcases value_or_name_of_scan hscan hts with ⟨-, x, hx⟩ | ⟨t, ht, -, herror⟩
  · rw [hx] at he
    cases he
  · rw [herror] at he
    obtain rfl : t.unresolved = e := Except.error.inj he
    rw [(acceptable_of_scan hscan).2] at ht
    obtain ⟨pre, post, hslice⟩ := isSlice_of_mem_cut hsize ht
    exact ⟨hslice, .unresolvedName⟩

/-- Every error on the way from a source to its formula or its value is located,
as long as the source is not too long for its offsets. -/
theorem located_of_error {e : Error} (hsize : source.utf8ByteSize < UInt32.size)
    (h : (∃ dialect, Formula.ofSource dialect source = .error e) ∨ evaluate source = .error e) :
    Located source e := by
  have hbytes : utf8Len source.toList = source.utf8ByteSize := by
    rw [← String.utf8ByteSize_ofList, String.ofList_toList]
  have hmax : utf8Len source.toList ≤ Span.maxOffset := by
    rw [hbytes]
    exact Nat.le_sub_one_of_lt hsize
  have hshown : Shown source e := by
    rcases h with ⟨dialect, h⟩ | h
    · exact shown_of_ofSource hmax h
    · rcases evaluate_eq_error_iff.mp h with h | ⟨f, e', hf, he', rfl⟩
      · exact shown_of_ofSource hmax h
      · exact shown_of_evaluate hmax hf he'
  obtain ⟨hslice, hshows⟩ := hshown
  exact {
    ordered := hslice.ordered
    inside := hbytes ▸ hslice.inside
    start_valid := hslice.start_valid
    stop_valid := hslice.stop_valid
    shows := ⟨_, _, _, hslice.split, hslice.start_eq.symm, hslice.extract_eq, hshows⟩ }

/-- In `2*((1) 2)+x` the place is that of the outer brackets. -/
theorem located_of_error_nested :
    "2*((1) 2)+x".utf8ByteSize < UInt32.size ∧
      Formula.ofSource .symbolic "2*((1) 2)+x" =
        .error (.structural ⟨.leftoverOperands 2, ⟨2, 9⟩⟩) ∧
      Located "2*((1) 2)+x" (.structural ⟨.leftoverOperands 2, ⟨2, 9⟩⟩) := by
  have hsize : "2*((1) 2)+x".utf8ByteSize < UInt32.size := by decide
  have hsource : Formula.ofSource .symbolic "2*((1) 2)+x" =
      .error (.structural ⟨.leftoverOperands 2, ⟨2, 9⟩⟩) := rfl
  exact ⟨hsize, hsource, located_of_error hsize (.inl ⟨.symbolic, hsource⟩)⟩

end

end Calculator
