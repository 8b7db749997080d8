import Calculator.Proofs.Token.Runs
import Calculator.Token.Scan
import Mathlib.Data.List.DropRight

/-!
# The faults of a source

A source is `Acceptable` when every character in it is allowed and every run has
the right form.  What keeps it from that are its faults, and `Fault` lists them,
each with the offset up to which the source must be read before the fault can be
told: a character that is not allowed and a second point where they stand, and
a run of the wrong form where it ends, for it might go on.
`acceptable_iff_no_fault` says that these are all.

`FirstFault` is the fault that is told first.  A character that is not allowed
may end a run of the wrong form, and then goes before it.

`Meets` says the same of a reader that has come to a certain place and sees the
next character: `fault_iff_meets`.  What it has read of the last run is all that
it needs to know.
-/

namespace Calculator

open String (utf8Len)

/-! ## Faults -/

/-- A source without faults. -/
structure Acceptable (dialect : Dialect) (source : List Char) : Prop where
  allowed : ∀ c ∈ source, dialect.Allows c
  numerals : ∀ pre run post, MaximalRun .number source pre run post → IsNumeral run
  names : ∀ pre run post, MaximalRun .name source pre run post → '_' ∉ run

/-- What a run is that has the wrong form at its end. -/
inductive BadRun : RunSort → List Char → ScanContext → ScanFault → Prop
  /-- The only point is the last character. -/
  | number {whole : List Char} (h : '.' ∉ whole) :
      BadRun .number (whole ++ ['.']) .inNumber .malformedNumber
  /-- There is an underscore. -/
  | name {run : List Char} (h : '_' ∈ run) : BadRun .name run .inName .malformedName

/-- The faults of a source, with the offset at which each is told and what is
being read there. -/
inductive Fault (dialect : Dialect) (source : List Char) : Nat → ScanContext → ScanError → Prop
  /-- A character that is not allowed. -/
  | strange {pre post : List Char} {c : Char} (hsource : source = pre ++ c :: post)
      (hc : ¬ dialect.Allows c) :
      Fault dialect source (utf8Len pre) .betweenTokens
        ⟨.strangeChar c, .ofOffsets (utf8Len pre) (utf8Len pre + c.utf8Size)⟩
  /-- The second point of a run. -/
  | point {pre first second third post : List Char}
      (hrun : MaximalRun .number source pre (first ++ '.' :: second ++ '.' :: third) post)
      (hfirst : '.' ∉ first) (hsecond : '.' ∉ second) :
      Fault dialect source (utf8Len (pre ++ (first ++ '.' :: second))) .inNumber
        ⟨.repeatedPoint, .ofOffsets (utf8Len (pre ++ (first ++ '.' :: second)))
          (utf8Len (pre ++ (first ++ '.' :: second)) + 1)⟩
  /-- A run of the wrong form. -/
  | run {sort : RunSort} {pre run post : List Char} {context : ScanContext} {fault : ScanFault}
      (hrun : MaximalRun sort source pre run post) (hbad : BadRun sort run context fault) :
      Fault dialect source (utf8Len (pre ++ run)) context
        ⟨fault, .ofOffsets (utf8Len pre) (utf8Len (pre ++ run))⟩

/-- The fault that is told at the least offset; of two at one offset, the
character that is not allowed. -/
def FirstFault (dialect : Dialect) (source : List Char) (e : ScanError) : Prop :=
  ∃ offset, Fault dialect source offset e.fault.context e ∧
    ∀ offset' context' e', Fault dialect source offset' context' e' →
      offset < offset' ∨ offset = offset' ∧ (e' = e ∨ ∃ c, e.fault = .strangeChar c)

/-! ## Sources without faults -/

section

variable {dialect : Dialect} {source done rest pre run post : List Char} {sort : RunSort}

theorem BadRun.ne_nil {context : ScanContext} {fault : ScanFault}
    (h : BadRun sort run context fault) : run ≠ [] := by
  cases h with
  | number => simp
  | name h => exact List.ne_nil_of_mem h

theorem BadRun.getLast?_of_number {context : ScanContext} {fault : ScanFault}
    (h : BadRun .number run context fault) : run.getLast? = some '.' := by
  cases h
  simp

theorem BadRun.underscore_mem {context : ScanContext} {fault : ScanFault}
    (h : BadRun .name run context fault) : '_' ∈ run := by
  cases h
  assumption

/-- A run of a sort is bad in one way. -/
theorem BadRun.unique {run' : List Char} {context context' : ScanContext} {fault fault' : ScanFault}
    (h : BadRun sort run context fault) (h' : BadRun sort run' context' fault') :
    fault = fault' := by
  cases h with
  | number =>
    cases h'
    rfl
  | name =>
    cases h'
    rfl

theorem BadRun.ne_strangeChar {context : ScanContext} {fault : ScanFault}
    (h : BadRun sort run context fault) (c : Char) : fault ≠ .strangeChar c := by
  cases h <;> nofun

theorem isNumberPart_of_isDigit {c : Char} (h : c.isDigit = true) : isNumberPart c = true := by
  simp [isNumberPart, h]

theorem isNamePart_of_isAlpha {c : Char} (h : c.isAlpha = true) : isNamePart c = true := by
  simp [isNamePart, h]

theorem isDigit_of_isNumberPart {c : Char} (h : isNumberPart c = true) (hc : c ≠ '.') :
    c.isDigit = true := by
  simpa [isNumberPart, hc] using h

theorem not_mem_of_isDigit {ds : List Char} (h : ∀ c ∈ ds, c.isDigit = true) : '.' ∉ ds :=
  fun hmem => absurd (h '.' hmem) (by decide)

/-- A numeral has at most one point, and digits after it. -/
theorem IsNumeral.digits_after_point {first second : List Char}
    (h : IsNumeral (first ++ '.' :: second)) : second ≠ [] ∧ ∀ c ∈ second, c.isDigit = true := by
  generalize htext : first ++ '.' :: second = text at h
  cases h with
  | digits hne hds =>
    rw [← htext] at hds
    exact absurd (hds '.' (by simp)) (by decide)
  | decimal hne hw hf =>
    obtain ⟨-, -, rfl⟩ := (List.append_cons_inj_of_notMem (not_mem_of_isDigit hw)
      (not_mem_of_isDigit hf)).mp htext.symm
    exact ⟨hne, hf⟩

/-- A run of digits and points is a numeral unless it has a second point or ends
with its only one. -/
theorem isNumeral_of_run (hne : run ≠ []) (h : ∀ c ∈ run, isNumberPart c = true)
    (hpoint : ∀ first second third, run = first ++ '.' :: second ++ '.' :: third → '.' ∉ first →
      '.' ∈ second)
    (hlast : ∀ whole, run = whole ++ ['.'] → '.' ∈ whole) : IsNumeral run := by
  by_cases hmem : '.' ∈ run
  · obtain ⟨whole, fraction, rfl, hwhole⟩ := List.eq_append_cons_of_mem hmem
    have hfraction : '.' ∉ fraction := by
      intro hc
      obtain ⟨second, third, rfl, hsecond⟩ := List.eq_append_cons_of_mem hc
      exact hsecond (hpoint whole second third (by simp) hwhole)
    refine .decimal ?_ ?_ ?_
    · rintro rfl
      exact hwhole (hlast whole rfl)
    · intro c hc
      exact isDigit_of_isNumberPart (h c (by simp [hc])) (by rintro rfl; exact hwhole hc)
    · intro c hc
      exact isDigit_of_isNumberPart (h c (by simp [hc])) (by rintro rfl; exact hfraction hc)
  · exact .digits hne fun c hc =>
      isDigit_of_isNumberPart (h c hc) (by rintro rfl; exact hmem hc)

/-- A source is acceptable when it has no fault. -/
theorem acceptable_iff_no_fault :
    Acceptable dialect source ↔ ∀ offset context e, ¬ Fault dialect source offset context e := by
  constructor
  · rintro ⟨hallowed, hnumerals, hnames⟩ offset context e hfault
    cases hfault with
    | strange hsource hc => exact hc (hallowed _ (by simp [hsource]))
    | @point pre first second third post hrun hfirst hsecond =>
      have hnumeral := hnumerals _ _ _ hrun
      rw [List.append_assoc, List.cons_append] at hnumeral
      exact not_mem_of_isDigit hnumeral.digits_after_point.2 (by simp)
    | run hrun hbad =>
      cases hbad with
      | number h => exact (hnumerals _ _ _ hrun).digits_after_point.1 rfl
      | name h => exact hnames _ _ _ hrun h
  · intro hnone
    refine ⟨?_, ?_, ?_⟩
    · intro c hc
      obtain ⟨pre, post, hsource⟩ := List.append_of_mem hc
      by_contra hallowed
      exact hnone _ _ _ (.strange hsource hallowed)
    · intro pre run post hrun
      refine isNumeral_of_run hrun.ne_nil hrun.inside ?_ ?_
      · rintro first second third rfl hfirst
        by_contra hsecond
        exact hnone _ _ _ (.point hrun hfirst hsecond)
      · rintro whole rfl
        by_contra hwhole
        exact hnone _ _ _ (.run hrun (.number hwhole))
    · intro pre run post hrun hmem
      exact hnone _ _ _ (.run hrun (.name hmem))

/-! ## Faults where they are met -/

/-- The faults that can be told after `done` when `next` is the next character,
or `none` at the end. -/
inductive Meets (dialect : Dialect) (done : List Char) (next : Option Char) :
    ScanContext → ScanError → Prop
  | strange {c : Char} (hnext : next = some c) (hc : ¬ dialect.Allows c) :
      Meets dialect done next .betweenTokens
        ⟨.strangeChar c, .ofOffsets (utf8Len done) (utf8Len done + c.utf8Size)⟩
  | point {first second : List Char} (hnext : next = some '.')
      (hrun : done.rtakeWhile RunSort.number.has = first ++ '.' :: second) (hfirst : '.' ∉ first)
      (hsecond : '.' ∉ second) :
      Meets dialect done next .inNumber
        ⟨.repeatedPoint, .ofOffsets (utf8Len done) (utf8Len done + 1)⟩
  | run {sort : RunSort} {context : ScanContext} {fault : ScanFault}
      (hbad : BadRun sort (done.rtakeWhile sort.has) context fault)
      (hnext : ∀ c ∈ next, sort.has c = false) :
      Meets dialect done next context
        ⟨fault, .ofOffsets (utf8Len (done.rdropWhile sort.has)) (utf8Len done)⟩

/-- The last run of what has been read. -/
theorem rtakeWhile_append_run (h : ∀ c ∈ run, sort.has c = true)
    (hpre : ∀ c ∈ pre.getLast?, sort.has c = false) :
    (pre ++ run).rtakeWhile sort.has = run ∧ (pre ++ run).rdropWhile sort.has = pre := by
  induction run using List.reverseRecOn with
  | nil =>
    have hlast : ∀ hl : pre ≠ [], ¬ sort.has (pre.getLast hl) = true := fun hl => by
      rw [hpre _ (List.getLast?_eq_some_getLast hl)]
      nofun
    rw [List.append_nil]
    exact ⟨List.rtakeWhile_eq_nil_iff.mpr hlast, List.rdropWhile_eq_self_iff.mpr hlast⟩
  | append_singleton run c ih =>
    have hc : sort.has c = true := h c (by simp)
    obtain ⟨htake, hdrop⟩ := ih fun d hd => h d (by simp [hd])
    rw [← List.append_assoc, List.rtakeWhile_concat_pos sort.has _ c hc,
      List.rdropWhile_concat_pos sort.has _ c hc, htake, hdrop]
    exact ⟨rfl, rfl⟩

theorem eq_false_of_getLast?_rdropWhile :
    ∀ c ∈ (done.rdropWhile sort.has).getLast?, sort.has c = false := by
  intro c hc
  obtain ⟨hl, rfl⟩ := List.mem_getLast?_eq_getLast hc
  exact Bool.eq_false_of_not_eq_true (List.rdropWhile_last_not sort.has done hl)

theorem eq_false_of_head?_dropWhile :
    ∀ c ∈ (rest.dropWhile sort.has).head?, sort.has c = false := by
  intro c hc
  have hhead := List.head?_dropWhile_not sort.has rest
  rw [Option.mem_def.mp hc] at hhead
  simpa using hhead

/-- The last run of what has been read is maximal when the next character does
not continue it. -/
theorem maximalRun_rtakeWhile (hne : done.rtakeWhile sort.has ≠ [])
    (hrest : ∀ c ∈ rest.head?, sort.has c = false) :
    MaximalRun sort (done ++ rest) (done.rdropWhile sort.has) (done.rtakeWhile sort.has) rest :=
  ⟨by rw [List.rdropWhile_append_rtakeWhile], hne, fun _ => List.mem_rtakeWhile_imp,
    eq_false_of_getLast?_rdropWhile, hrest⟩

/-- And otherwise the next characters of its sort belong to it. -/
theorem maximalRun_rtakeWhile_append (hne : done.rtakeWhile sort.has ≠ []) :
    MaximalRun sort (done ++ rest) (done.rdropWhile sort.has)
      (done.rtakeWhile sort.has ++ rest.takeWhile sort.has) (rest.dropWhile sort.has) := by
  refine ⟨?_, by simp [hne], ?_, eq_false_of_getLast?_rdropWhile, eq_false_of_head?_dropWhile⟩
  · rw [← List.append_assoc, List.rdropWhile_append_rtakeWhile, List.append_assoc,
      List.takeWhile_append_dropWhile]
  · intro c hc
    rcases List.mem_append.mp hc with hc | hc
    · exact List.mem_rtakeWhile_imp hc
    · exact List.mem_takeWhile_imp hc

/-- A fault is told where a reader that has come there can tell it. -/
theorem fault_iff_meets {offset : Nat} {context : ScanContext} {e : ScanError} :
    Fault dialect source offset context e ↔ ∃ done rest, source = done ++ rest ∧
      offset = utf8Len done ∧ Meets dialect done rest.head? context e := by
  constructor
  · intro h
    cases h with
    | @strange pre post c hsource hc => exact ⟨pre, c :: post, hsource, rfl, .strange rfl hc⟩
    | @point pre first second third post hrun hfirst hsecond =>
      have hinside : ∀ c ∈ first ++ '.' :: second, isNumberPart c = true :=
        fun c hc => hrun.inside c (List.mem_append_left _ hc)
      refine ⟨pre ++ (first ++ '.' :: second), '.' :: third ++ post, ?_, rfl, ?_⟩
      · rw [hrun.split]
        simp
      · exact .point rfl (rtakeWhile_append_run hinside hrun.before).1 hfirst hsecond
    | @run sort pre run post context fault hrun hbad =>
      obtain ⟨htake, hdrop⟩ := rtakeWhile_append_run hrun.inside hrun.before
      have hmeets : Meets dialect (pre ++ run) post.head? context
          ⟨fault, .ofOffsets (utf8Len ((pre ++ run).rdropWhile sort.has)) (utf8Len (pre ++ run))⟩ :=
        .run (by rw [htake]; exact hbad) hrun.after
      rw [hdrop] at hmeets
      exact ⟨pre ++ run, post, hrun.split, rfl, hmeets⟩
  · rintro ⟨done, rest, rfl, rfl, hmeets⟩
    cases hmeets with
    | strange hnext hc =>
      obtain ⟨post, rfl⟩ := List.head?_eq_some_iff.mp hnext
      exact .strange rfl hc
    | @point first second hnext hrun hfirst hsecond =>
      obtain ⟨post, rfl⟩ := List.head?_eq_some_iff.mp hnext
      have hne : done.rtakeWhile RunSort.number.has ≠ [] := by
        rw [hrun]
        simp
      have hmax : MaximalRun .number (done ++ '.' :: post) _ _ _ :=
        maximalRun_rtakeWhile_append hne
      rw [hrun, List.takeWhile_cons_of_pos (by rfl)] at hmax
      have hfault : Fault dialect _ _ _ _ := .point hmax hfirst hsecond
      rw [← hrun, List.rdropWhile_append_rtakeWhile] at hfault
      exact hfault
    | @run sort context fault hbad hnext =>
      have hfault : Fault dialect _ _ _ _ := .run (maximalRun_rtakeWhile hbad.ne_nil hnext) hbad
      rw [List.rdropWhile_append_rtakeWhile] at hfault
      exact hfault

/-! ## The first fault -/

/-- A source in which a reader meets nothing, neither at a character nor at the
end, has no fault. -/
theorem no_fault_of_not_meets
    (hread : ∀ pre c post, source = pre ++ c :: post → ∀ context e,
      ¬ Meets dialect pre (some c) context e)
    (hend : ∀ context e, ¬ Meets dialect source none context e) (offset : Nat)
    (context : ScanContext) (e : ScanError) : ¬ Fault dialect source offset context e := by
  intro hfault
  obtain ⟨done, rest, hsource, -, hmeets⟩ := fault_iff_meets.mp hfault
  cases rest with
  | nil =>
    rw [List.append_nil] at hsource
    exact hend context e (hsource ▸ hmeets)
  | cons c rest => exact hread done c rest hsource context e hmeets

/-- What a reader meets first is the first fault, if a character that is not
allowed is the only thing that it may have preferred. -/
theorem FirstFault.of_meets {e : ScanError}
    (hmeets : Meets dialect done rest.head? e.fault.context e)
    (hread : ∀ pre c post, done = pre ++ c :: post → ∀ context e',
      ¬ Meets dialect pre (some c) context e')
    (htie : ∀ context e', Meets dialect done rest.head? context e' →
      e' = e ∨ ∃ c, e.fault = .strangeChar c) : FirstFault dialect (done ++ rest) e := by
  refine ⟨utf8Len done, fault_iff_meets.mpr ⟨done, rest, rfl, rfl, hmeets⟩, ?_⟩
  intro offset' context' e' hfault
  obtain ⟨done', rest', hsource, rfl, hmeets'⟩ := fault_iff_meets.mp hfault
  rcases List.append_eq_append_iff.mp hsource with ⟨more, rfl, rfl⟩ | ⟨more, rfl, rfl⟩
  · -- The other fault is told here or later.
    cases more with
    | nil =>
      rw [List.nil_append] at htie
      rw [List.append_nil] at hmeets' ⊢
      exact .inr ⟨rfl, htie context' e' hmeets'⟩
    | cons c more =>
      have hc := c.utf8Size_pos
      rw [String.utf8Len_append, String.utf8Len_cons]
      exact .inl (by omega)
  · -- The other fault is told here or before.
    cases more with
    | nil =>
      rw [List.append_nil] at htie ⊢
      rw [List.nil_append] at hmeets'
      exact .inr ⟨rfl, htie context' e' hmeets'⟩
    | cons c more => exact absurd hmeets' (hread done' c more rfl context' e')

/-- A place in a source is known by the bytes before it. -/
theorem append_inj_of_utf8Len {done' rest' : List Char} (h : done ++ rest = done' ++ rest')
    (hlen : utf8Len done = utf8Len done') : done = done' ∧ rest = rest' := by
  rcases List.append_eq_append_iff.mp h with ⟨more, rfl, rfl⟩ | ⟨more, rfl, rfl⟩
  · rw [String.utf8Len_append, Nat.left_eq_add, String.utf8Len_eq_zero] at hlen
    simp [hlen]
  · rw [String.utf8Len_append, Nat.add_eq_left, String.utf8Len_eq_zero] at hlen
    simp [hlen]

/-- At one offset there is one character that is not allowed. -/
theorem Fault.strange_unique {offset : Nat} {context context' : ScanContext} {e e' : ScanError}
    {c c' : Char} (h : Fault dialect source offset context e)
    (h' : Fault dialect source offset context' e') (hc : e.fault = .strangeChar c)
    (hc' : e'.fault = .strangeChar c') : e = e' := by
  obtain ⟨done, rest, rfl, rfl, hmeets⟩ := fault_iff_meets.mp h
  obtain ⟨done', rest', hsource, hlen, hmeets'⟩ := fault_iff_meets.mp h'
  obtain ⟨rfl, rfl⟩ := append_inj_of_utf8Len hsource hlen
  cases hmeets with
  | point => cases hc
  | run hbad => exact absurd hc (hbad.ne_strangeChar c)
  | strange hnext =>
    cases hmeets' with
    | point => cases hc'
    | run hbad => exact absurd hc' (hbad.ne_strangeChar c')
    | strange hnext' =>
      rw [hnext] at hnext'
      cases hnext'
      rfl

/-- A source with a first fault is not acceptable. -/
theorem FirstFault.not_acceptable {e : ScanError} (h : FirstFault dialect source e) :
    ¬ Acceptable dialect source := by
  obtain ⟨offset, hfault, -⟩ := h
  exact fun hacceptable => acceptable_iff_no_fault.mp hacceptable _ _ _ hfault

/-- A source has only one first fault. -/
theorem FirstFault.unique {e e' : ScanError} (h : FirstFault dialect source e)
    (h' : FirstFault dialect source e') : e = e' := by
  obtain ⟨offset, hfault, hleast⟩ := h
  obtain ⟨offset', hfault', hleast'⟩ := h'
  rcases hleast _ _ _ hfault' with hlt | ⟨rfl, rfl | ⟨c, hc⟩⟩
  · rcases hleast' _ _ _ hfault with hlt' | ⟨rfl, -⟩ <;> omega
  · rfl
  · rcases hleast' _ _ _ hfault with hlt' | ⟨-, rfl | ⟨c', hc'⟩⟩
    · omega
    · rfl
    · exact hfault.strange_unique hfault' hc hc'

end

end Calculator
