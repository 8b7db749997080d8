import Calculator.Proofs.Formula.Lifecycle
import Calculator.Proofs.Token.Pieces

/-!
# The two dialects

A source of numbers alone is one of numbers and names that has no name in it.

The two dialects differ in the characters that a source may hold and in nothing
else (`Dialect.allows_numeric_iff`).  So the faults of a source are the same in
both, but for the letters and underscores, which are faults of the numeric
dialect (`Fault.numeric`, `Fault.strangeLetter_or_symbolic`), and a source that
both accept has the same tokens in both.

`DialectsAgree` says what follows for the way from source to value: the numeric
dialect makes the formulas of the symbolic one that have no names, these are the
sources that have a value, and its errors are those of the symbolic dialect,
unless it is a letter or an underscore that is refused.
-/

namespace Calculator

open Assembly (mem_names_of_ofTokens)

/-- The error of a letter or an underscore that is refused. -/
def Error.IsStrangeLetter (e : Error) : Prop :=
  ∃ c span, isNamePart c = true ∧ e = .scan ⟨.strangeChar c, span⟩

/-- What the dialects make of the same source. -/
structure DialectsAgree (source : String) : Prop where
  /-- A formula without names is the same in both, and no other is numeric. -/
  formula : ∀ f, Formula.ofSource .numeric source = .ok f ↔
    Formula.ofSource .symbolic source = .ok f ∧ f.names = ∅
  /-- The sources with a value are the numeric ones. -/
  value : (∃ x, evaluate source = .ok x) ↔ ∃ f, Formula.ofSource .numeric source = .ok f
  /-- All errors are the same, but for those of letters and underscores. -/
  error : ∀ e, Formula.ofSource .numeric source = .error e →
    e.IsStrangeLetter ∨ Formula.ofSource .symbolic source = .error e

/-! ## Characters and faults -/

section

variable {c : Char} {cs : List Char} {source : String} {ts : List Token} {f : Formula}

theorem Dialect.allows_numeric_iff :
    Dialect.numeric.Allows c ↔ Dialect.symbolic.Allows c ∧ isNamePart c = false := by
  constructor
  · rintro (hnumber | hseparator | ⟨hnames, -⟩)
    · exact ⟨.inl hnumber, isNamePart_eq_false hnumber⟩
    · exact ⟨.inr (.inl hseparator), eq_false_of_mem_separators hseparator .name⟩
    · cases hnames
  · rintro ⟨hnumber | hseparator | ⟨-, hname⟩, hother⟩
    · exact .inl hnumber
    · exact .inr (.inl hseparator)
    · rw [hname] at hother
      cases hother

theorem acceptable_numeric_iff :
    Acceptable .numeric cs ↔ Acceptable .symbolic cs ∧ ∀ c ∈ cs, isNamePart c = false := by
  constructor
  · rintro ⟨hallowed, hnumerals, hnames⟩
    exact ⟨⟨fun c hc => (Dialect.allows_numeric_iff.mp (hallowed c hc)).1, hnumerals, hnames⟩,
      fun c hc => (Dialect.allows_numeric_iff.mp (hallowed c hc)).2⟩
  · rintro ⟨⟨hallowed, hnumerals, hnames⟩, hnone⟩
    exact ⟨fun c hc => Dialect.allows_numeric_iff.mpr ⟨hallowed c hc, hnone c hc⟩, hnumerals,
      hnames⟩

section

variable {offset : Nat} {context : ScanContext} {e : ScanError}

/-- What is a fault where names are allowed is one where they are not. -/
theorem Fault.numeric (h : Fault .symbolic cs offset context e) :
    Fault .numeric cs offset context e := by
  cases h with
  | strange hsource hc =>
    exact .strange hsource fun hallowed => hc (Dialect.allows_numeric_iff.mp hallowed).1
  | point hrun hfirst hsecond => exact .point hrun hfirst hsecond
  | run hrun hbad => exact .run hrun hbad

/-- What is a fault only where names are not allowed is a letter or an
underscore. -/
theorem Fault.strangeLetter_or_symbolic (h : Fault .numeric cs offset context e) :
    (Error.scan e).IsStrangeLetter ∨ Fault .symbolic cs offset context e := by
  cases h with
  | @strange pre post c hsource hc =>
    cases hname : isNamePart c with
    | true => exact .inl ⟨c, _, hname, rfl⟩
    | false =>
      refine .inr (.strange hsource fun hallowed => hc ?_)
      exact Dialect.allows_numeric_iff.mpr ⟨hallowed, hname⟩
  | point hrun hfirst hsecond => exact .inr (.point hrun hfirst hsecond)
  | run hrun hbad => exact .inr (.run hrun hbad)

/-- Since there are fewer faults where names are allowed, the first one stays
the first. -/
theorem FirstFault.strangeLetter_or_symbolic (h : FirstFault .numeric cs e) :
    (Error.scan e).IsStrangeLetter ∨ FirstFault .symbolic cs e := by
  obtain ⟨offset, hfault, hleast⟩ := h
  rcases hfault.strangeLetter_or_symbolic with hletter | hfault
  · exact .inl hletter
  · exact .inr ⟨offset, hfault, fun offset' context' e' h' => hleast offset' context' e' h'.numeric⟩

end

/-! ## Sources -/

/-- Names among the tokens are what keeps a source from being numeric. -/
theorem scan_numeric_iff :
    scan .numeric source = .ok ts ↔ scan .symbolic source = .ok ts ∧ ∀ t ∈ ts, t.kind ≠ .name := by
  constructor
  · intro h
    obtain ⟨hacceptable, rfl⟩ := acceptable_of_scan h
    obtain ⟨hsymbolic, hnone⟩ := acceptable_numeric_iff.mp hacceptable
    refine ⟨scan_of_acceptable hsymbolic, fun t ht hk => ?_⟩
    obtain ⟨c, hc, hname⟩ := exists_isNamePart_of_name ht hk
    rw [hnone c hc] at hname
    cases hname
  · rintro ⟨h, hnone⟩
    obtain ⟨hacceptable, rfl⟩ := acceptable_of_scan h
    refine scan_of_acceptable (acceptable_numeric_iff.mpr ⟨hacceptable, fun c hc => ?_⟩)
    refine eq_false_of_ne_true fun hname => ?_
    obtain ⟨t, ht, hk⟩ := exists_name_of_mem hc hname
    exact hnone t ht hk

theorem names_eq_empty_iff (h : Formula.ofTokens ts = .ok f) :
    f.names = ∅ ↔ ∀ t ∈ ts, t.kind ≠ .name := by
  rw [Std.ExtTreeSet.eq_empty_iff_forall_not_mem]
  constructor
  · intro hnone t ht hk
    exact hnone t.text ((mem_names_of_ofTokens h).mpr ⟨t, ht, hk, rfl⟩)
  · intro hnone name hname
    obtain ⟨t, ht, hk, -⟩ := (mem_names_of_ofTokens h).mp hname
    exact hnone t ht hk

theorem ofSource_numeric_iff :
    Formula.ofSource .numeric source = .ok f ↔
      Formula.ofSource .symbolic source = .ok f ∧ f.names = ∅ := by
  rw [ofSource_eq_ok_iff, ofSource_eq_ok_iff]
  constructor
  · rintro ⟨ts, hscan, hts⟩
    obtain ⟨hsymbolic, hnone⟩ := scan_numeric_iff.mp hscan
    exact ⟨⟨ts, hsymbolic, hts⟩, (names_eq_empty_iff hts).mpr hnone⟩
  · rintro ⟨⟨ts, hscan, hts⟩, hnames⟩
    exact ⟨ts, scan_numeric_iff.mpr ⟨hscan, (names_eq_empty_iff hts).mp hnames⟩, hts⟩

/-- A formula has a value as it comes from its source when it has no names. -/
theorem exists_value_iff {dialect : Dialect} (h : Formula.ofSource dialect source = .ok f) :
    (∃ x, f.evaluate = .ok x) ↔ f.names = ∅ := by
  obtain ⟨ts, hscan, hts⟩ := ofSource_eq_ok_iff.mp h
  rw [names_eq_empty_iff hts]
  rcases value_or_name_of_scan hscan hts with ⟨hnone, hx⟩ | ⟨t, ht, hk, herror⟩
  · exact iff_of_true hx hnone
  · refine iff_of_false ?_ fun hnone => hnone t ht hk
    rintro ⟨x, hx⟩
    rw [hx] at herror
    cases herror

theorem exists_evaluate_iff :
    (∃ x, evaluate source = .ok x) ↔ ∃ f, Formula.ofSource .numeric source = .ok f := by
  constructor
  · rintro ⟨x, hx⟩
    obtain ⟨f, hsource, hvalue⟩ := evaluate_eq_ok_iff.mp hx
    exact ⟨f, ofSource_numeric_iff.mpr ⟨hsource, (exists_value_iff hsource).mp ⟨x, hvalue⟩⟩⟩
  · rintro ⟨f, hf⟩
    obtain ⟨hsource, hnames⟩ := ofSource_numeric_iff.mp hf
    obtain ⟨x, hvalue⟩ := (exists_value_iff hsource).mpr hnames
    exact ⟨x, evaluate_eq_ok_iff.mpr ⟨f, hsource, hvalue⟩⟩

theorem ofSource_numeric_eq_error {e : Error} (h : Formula.ofSource .numeric source = .error e) :
    e.IsStrangeLetter ∨ Formula.ofSource .symbolic source = .error e := by
  have houtcome := sourceOutcome .numeric source
  rw [h] at houtcome
  cases houtcome with
  | scan hscan =>
    rcases (firstFault_of_scan hscan).strangeLetter_or_symbolic with hletter | hfault
    · exact .inl hletter
    · right
      exact Formula.ofSource_of_scan_error (scan_of_firstFault hfault)
  | structural hscan hts =>
    right
    rw [Formula.ofSource_of_scan (scan_numeric_iff.mp hscan).1, hts]
    rfl

end

/-- The numeric dialect makes of a source what the symbolic one does, as long as
there are no names in it. -/
theorem dialectsAgree (source : String) : DialectsAgree source where
  formula _ := ofSource_numeric_iff
  value := exists_evaluate_iff
  error _ := ofSource_numeric_eq_error

end Calculator
