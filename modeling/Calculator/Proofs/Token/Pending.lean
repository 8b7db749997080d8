import Calculator.Proofs.Token.Places
import Calculator.Proofs.Token.Scanning

/-!
# The pending run

Where a scanner stands in a source that it has not read to the end.

A scanner keeps the offset at which its pending run starts and the text of the
run.  The two say the same: the text is what the source holds between that offset
and the one that the scanner has come to (`PendingAt.extract_eq`).  Both offsets
lie between two characters, whatever comes after, and so a run can be cut out of
its source at any time.  Between runs there is nothing to cut out, and the last
character that was read is a separator.

`Scanned` is the invariant that this is read off.  `Scanned.read` keeps it at
every character and `scanned_of_readAll` through a source;
`standing_of_readAll` says what it comes to in a source of which a part has been
read.
-/

namespace Calculator

open String (utf8Len)

/-- The run `p` is pending at `offset` in a source of which `done` has been read
and `rest` has not. -/
structure PendingAt (source : String) (done rest : List Char) (offset : Nat) (p : OpenRun) :
    Prop where
  /-- The run starts where a maximal run of the source does, and goes on up to
  here. -/
  maximal : ∃ pre more post, done = pre ++ p.text.toList ∧ rest = more ++ post ∧
    p.start = utf8Len pre ∧
    MaximalRun p.run.sort source.toList pre (p.text.toList ++ more) post
  /-- It holds digits, or digits and one point, or letters and underscores. -/
  gathers : p.run.Gathers p.text.toList
  /-- It is not empty. -/
  start_lt : p.start < offset
  /-- It starts at a character of the source. -/
  start_valid : String.Pos.Raw.IsValid source ⟨p.start⟩
  /-- It stops at a character of the source, or at its end. -/
  stop_valid : String.Pos.Raw.IsValid source ⟨offset⟩
  /-- Its text is what the source holds between its ends. -/
  extract_eq : String.Pos.Raw.extract source ⟨p.start⟩ ⟨offset⟩ = p.text

/-- A scanner stands in a source of which it has read the first `n` characters. -/
structure Standing (source : String) (n : Nat) (s : Scanner) : Prop where
  /-- It has come to where these characters end. -/
  offset_eq : s.offset = utf8Len (source.toList.take n)
  /-- Between runs, it has read a separator last, or nothing. -/
  between : s.pending = none → ∀ c ∈ (source.toList.take n).getLast?, c ∈ separators
  /-- In a run, the run is pending there. -/
  within : ∀ p, s.pending = some p →
    PendingAt source (source.toList.take n) (source.toList.drop n) s.offset p
  /-- A run of digits and points is refused here exactly if its only point is its
  last character. -/
  refused : ∀ p, s.pending = some p → p.run.sort = .number → ∀ e,
    s.endRun = .error e ↔ e = ⟨.malformedNumber, .ofOffsets p.start s.offset⟩ ∧
      ∃ whole, p.text.toList = whole ++ ['.'] ∧ '.' ∉ whole

section

variable {dialect : Dialect} {source : String} {done rest : List Char} {s : Scanner} {p : OpenRun}

/-- What has been read was allowed. -/
theorem allows_of_readAll (h : Scanner.readAll dialect {} done = .ok s) :
    ∀ c ∈ done, dialect.Allows c := by
  intro c hc
  obtain ⟨pre, post, hsplit⟩ := List.append_of_mem hc
  by_contra hstrange
  exact (scanned_of_readAll h).2 pre c post hsplit _ _ (.strange rfl hstrange)

/-- A character that is in no run is a separator. -/
theorem mem_separators_of_allows {c : Char} (h : dialect.Allows c)
    (hruns : ∀ sort : RunSort, sort.has c = false) : c ∈ separators := by
  have hnumber : isNumberPart c = false := hruns .number
  have hname : isNamePart c = false := hruns .name
  rcases h with hpart | hc | ⟨-, hpart⟩
  · rw [hnumber] at hpart
    cases hpart
  · exact hc
  · rw [hname] at hpart
    cases hpart

/-- A scanner between runs has read a separator last. -/
theorem Scanned.separator_of_pending (h : Scanned done s) (hpending : s.pending = none)
    (hallows : ∀ c ∈ done, dialect.Allows c) : ∀ c ∈ done.getLast?, c ∈ separators := by
  cases h with
  | inRun => cases hpending
  | between hends _ =>
    intro c hc
    obtain ⟨hne, rfl⟩ := List.mem_getLast?_eq_getLast hc
    apply mem_separators_of_allows (hallows _ (List.getLast_mem hne))
    intro sort
    exact Bool.eq_false_of_not_eq_true (List.rtakeWhile_eq_nil_iff.mp (hends sort) hne)

/-- The first part of a maximal run is pending where it stops. -/
theorem PendingAt.of_maximalRun {run : Run} {pre text more post : List Char}
    (hrun : MaximalRun run.sort source.toList pre (text ++ more) post)
    (hgathers : run.Gathers text) :
    PendingAt source (pre ++ text) (more ++ post) (utf8Len (pre ++ text))
      ⟨run, utf8Len pre, String.ofList text⟩ := by
  have hslice : IsSlice source.toList ⟨utf8Len pre, utf8Len (pre ++ text)⟩ pre text
      (more ++ post) := ⟨by simp [hrun.split], rfl, rfl⟩
  have htext : (String.ofList text).toList = text := String.toList_ofList
  have hne : utf8Len text ≠ 0 := fun hzero => hgathers.ne_nil (String.utf8Len_eq_zero.mp hzero)
  constructor
  · refine ⟨pre, more, post, ?_, rfl, rfl, ?_⟩
    · rw [htext]
    · rw [htext]
      exact hrun
  · rw [htext]
    exact hgathers
  · show utf8Len pre < utf8Len (pre ++ text)
    rw [String.utf8Len_append]
    omega
  · exact hslice.start_valid
  · exact hslice.stop_valid
  · exact hslice.extract_eq

/-- A scanner in a run has it pending where it stands. -/
theorem Scanned.pendingAt (h : Scanned done s) (hpending : s.pending = some p)
    (hsource : source.toList = done ++ rest) : PendingAt source done rest s.offset p := by
  cases h with
  | between => cases hpending
  | @inRun run tokens hgathers _ =>
    obtain rfl := Option.some.inj hpending
    have hrun : MaximalRun run.sort (done ++ rest) _ _ _ :=
      maximalRun_rtakeWhile_append hgathers.ne_nil
    rw [← hsource] at hrun
    have hat := PendingAt.of_maximalRun hrun hgathers
    rw [List.rdropWhile_append_rtakeWhile, List.takeWhile_append_dropWhile] at hat
    exact hat

theorem badRun_number_iff {text : List Char} {context : ScanContext} {fault : ScanFault} :
    BadRun .number text context fault ↔ context = .inNumber ∧ fault = .malformedNumber ∧
      ∃ whole, text = whole ++ ['.'] ∧ '.' ∉ whole := by
  constructor
  · intro h
    cases h with
    | number hwhole => exact ⟨rfl, rfl, _, rfl, hwhole⟩
  · rintro ⟨rfl, rfl, whole, rfl, hwhole⟩
    exact .number hwhole

/-- A run of digits and points is refused when its only point is its last
character, and otherwise not. -/
theorem Scanned.endRun_eq_error_iff (h : Scanned done s) (hpending : s.pending = some p)
    (hsort : p.run.sort = .number) (e : ScanError) :
    s.endRun = .error e ↔ e = ⟨.malformedNumber, .ofOffsets p.start s.offset⟩ ∧
      ∃ whole, p.text.toList = whole ++ ['.'] ∧ '.' ∉ whole := by
  have hended := h.ended
  cases h with
  | between => cases hpending
  | @inRun run tokens hgathers _ =>
    obtain rfl := Option.some.inj hpending
    have hrun : run.sort = .number := hsort
    rw [String.toList_ofList]
    generalize Scanner.endRun _ = result at hended ⊢
    cases hended with
    | ok _ hgood =>
      constructor
      · intro he
        cases he
      · rintro ⟨-, hlast⟩
        exact absurd (badRun_number_iff.mpr ⟨rfl, rfl, hlast⟩) (hrun ▸ hgood run.sort _ _)
    | @error sort fault hbad =>
      obtain rfl := sort_unique hbad.ne_nil hgathers.ne_nil
      rw [hrun] at hbad ⊢
      obtain ⟨-, rfl, hlast⟩ := badRun_number_iff.mp hbad
      constructor
      · intro he
        cases he
        exact ⟨rfl, hlast⟩
      · rintro ⟨rfl, -⟩
        rfl

end

/-- However far a scanner has come in a source, it stands there. -/
theorem standing_of_readAll {dialect : Dialect} {source : String} {n : Nat} {s : Scanner}
    (h : Scanner.readAll dialect {} (source.toList.take n) = .ok s) : Standing source n s := by
  have hscanned := (scanned_of_readAll h).1
  have hsource : source.toList = source.toList.take n ++ source.toList.drop n :=
    (List.take_append_drop n source.toList).symm
  refine ⟨?_, fun hpending => ?_, fun p hpending => ?_, fun p hpending hsort => ?_⟩
  · cases hscanned <;> rfl
  · exact hscanned.separator_of_pending hpending (allows_of_readAll h)
  · exact hscanned.pendingAt hpending hsource
  · exact hscanned.endRun_eq_error_iff hpending hsort

/-- Before the `é` of `a*12.é` the run `12.` is pending.  It can be cut out
there, but it is no number. -/
theorem standing_of_readAll_point :
    let s : Scanner :=
      ⟨5, some ⟨.decimal, 2, "12."⟩, #[⟨.name, "a", ⟨0, 1⟩⟩, ⟨.operator .mul, "*", ⟨1, 2⟩⟩]⟩
    Scanner.readAll .symbolic {} ("a*12.é".toList.take 5) = .ok s ∧ Standing "a*12.é" 5 s ∧
      String.Pos.Raw.extract "a*12.é" ⟨2⟩ ⟨5⟩ = "12." ∧
      s.endRun = .error ⟨.malformedNumber, ⟨2, 5⟩⟩ := by
  intro s
  have hdone : "a*12.é".toList.take 5 = ['a', '*', '1', '2', '.'] := rfl
  have hread : Scanner.readAll .symbolic {} ("a*12.é".toList.take 5) = .ok s := by
    rw [hdone]
    rfl
  have hstanding : Standing "a*12.é" 5 s := standing_of_readAll hread
  have hcut := (hstanding.within _ rfl).extract_eq
  have hlast : ∃ whole, "12.".toList = whole ++ ['.'] ∧ '.' ∉ whole :=
    ⟨['1', '2'], by decide, by decide⟩
  have hrefused := (hstanding.refused _ rfl rfl _).mpr ⟨rfl, hlast⟩
  exact ⟨hread, hstanding, hcut, hrefused⟩

end Calculator
