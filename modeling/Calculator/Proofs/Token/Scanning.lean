import Calculator.Proofs.Token.Faults

/-!
# What a scan comes to

The scanner knows of the source only what it has read, and of that it keeps the
tokens and the run that has not ended.  `Scanned` is this state as a function
of what has been read: the pending run is the last maximal run, with its start,
and the tokens are those of what lies before it.

`Scanned.endRun` and `Scanned.read` follow one step each.  A step either keeps
the state in this form, and then there was no fault to be met, or it fails with
the fault that is met.  `scanOutcome` carries this through a whole source, and
`scan_eq_ok_iff` and `scan_eq_error_iff` say what follows: which sources are
scanned and to which tokens, and which error the others get.
-/

namespace Calculator

open String (utf8Len)

/-! ## Classes -/

/-- The characters of a part of numbers and names. -/
def Part.Has : Part → Char → Prop
  | digit, c => c.isDigit = true
  | point, c => c = '.'
  | letter, c => isNamePart c = true

/-- What the class of a character tells of it. -/
inductive Classified (dialect : Dialect) (c : Char) : Option CharClass → Prop
  | part {part : Part} (hc : part.Has c) (hallowed : dialect.Allows c) :
      Classified dialect c (some (.part part))
  | mark {kind : Kind} (hc : c ∈ separators) (hkind : kindOfPiece? [c] = some kind) :
      Classified dialect c (some (.mark kind))
  | blank (hc : c ∈ separators) (hkind : kindOfPiece? [c] = none) :
      Classified dialect c (some .blank)
  | strange (hc : ¬ dialect.Allows c) : Classified dialect c none

theorem classified (dialect : Dialect) (c : Char) : Classified dialect c (dialect.classOf? c) := by
  by_cases hdigit : c.isDigit = true
  · have hclass : dialect.classOf? c = some (.part .digit) := by
      simp [Dialect.classOf?, CharClass.of?, hdigit]
    rw [hclass]
    exact .part hdigit (.inl (isNumberPart_of_isDigit hdigit))
  by_cases hpoint : c = '.'
  · subst hpoint
    have hpart : Part.point.Has '.' := rfl
    exact .part hpart (.inl rfl)
  have hnumber : ¬ isNumberPart c = true := by simp [isNumberPart, hdigit, hpoint]
  by_cases hseparator : c ∈ separators
  · have hmem := hseparator
    simp only [separators, List.mem_cons, List.not_mem_nil, or_false] at hmem
    rcases hmem with rfl | rfl | rfl | rfl | rfl | rfl | rfl
    case inr.inr.inr.inr.inr.inr => exact .blank hseparator rfl
    all_goals exact .mark hseparator rfl
  by_cases hname : isNamePart c = true
  · have hclass : CharClass.of? c = some (.part .letter) := by
      unfold CharClass.of?
      rw [if_neg hdigit]
      exact if_pos hname
    rw [Dialect.classOf?, hclass]
    cases hnames : dialect.allowsNames with
    | true => exact .part hname (.inr (.inr ⟨hnames, hname⟩))
    | false => exact .strange (by simp [Dialect.Allows, hnumber, hseparator, hnames])
  · have hclass : CharClass.of? c = none := by
      simp only [separators, List.mem_cons, List.not_mem_nil, or_false, not_or] at hseparator
      unfold CharClass.of?
      rw [if_neg hdigit]
      refine (if_neg hname).trans ?_
      split <;> simp_all
    rw [Dialect.classOf?, hclass]
    exact .strange (by simp [Dialect.Allows, hnumber, hseparator, hname])

/-! ## Runs -/

/-- The sort of the characters of a run. -/
def Run.sort : Run → RunSort
  | digits | decimal => .number
  | word => .name

/-- The texts that a run may have gathered. -/
inductive Run.Gathers : Run → List Char → Prop
  | digits {ds : List Char} (hne : ds ≠ []) (h : ∀ c ∈ ds, c.isDigit = true) : Gathers .digits ds
  | decimal {whole fraction : List Char} (hw : ∀ c ∈ whole, c.isDigit = true)
      (hf : ∀ c ∈ fraction, c.isDigit = true) : Gathers .decimal (whole ++ '.' :: fraction)
  | word {letters : List Char} (hne : letters ≠ []) (h : ∀ c ∈ letters, isNamePart c = true) :
      Gathers .word letters

section

variable {run : Run} {part : Part} {text : List Char} {c : Char}

theorem Run.Gathers.ne_nil (h : run.Gathers text) : text ≠ [] := by
  cases h with
  | digits hne _ => exact hne
  | decimal => simp
  | word hne _ => exact hne

theorem Part.Has.ne_point (h : Part.digit.Has c) : c ≠ '.' := by
  rintro rfl
  exact absurd (show '.'.isDigit = true from h) (by decide)

theorem Run.sort_begin (h : part.Has c) : (Run.begin part).sort.has c = true := by
  cases part with
  | digit => exact isNumberPart_of_isDigit h
  | point =>
    cases h
    rfl
  | letter => exact h

theorem Run.gathers_begin (h : part.Has c) : (Run.begin part).Gathers [c] := by
  cases part with
  | digit => exact .digits (by simp) (by simpa [Part.Has] using h)
  | point =>
    cases h
    exact @Run.Gathers.decimal [] [] nofun nofun
  | letter => exact .word (by simp) (by simpa [Part.Has] using h)

/-- What becomes of a run when a part of numbers and names is read. -/
inductive Extended (run : Run) (text : List Char) (c : Char) :
    Except ScanFault (Option Run) → Prop
  | goes {run' : Run} (hgathers : run'.Gathers (text ++ [c])) (hsort : run'.sort = run.sort)
      (hc : run.sort.has c = true) (hpoint : c = '.' → '.' ∉ text) :
      Extended run text c (.ok (some run'))
  | ends (hc : run.sort.has c = false) : Extended run text c (.ok none)
  | fails {first second : List Char} (hc : c = '.') (hrun : run = .decimal)
      (htext : text = first ++ '.' :: second) (hfirst : '.' ∉ first) (hsecond : '.' ∉ second) :
      Extended run text c (.error .repeatedPoint)

theorem forall_mem_concat {p : Char → Prop} (h : ∀ d ∈ text, p d) (hc : p c) :
    ∀ d ∈ text ++ [c], p d := by
  intro d hd
  rcases List.mem_append.mp hd with hd | hd
  · exact h d hd
  · rw [List.mem_singleton.mp hd]
    exact hc

theorem extended (h : run.Gathers text) (hc : part.Has c) :
    Extended run text c (run.extend? part) := by
  cases h with
  | digits hne hds =>
    cases part with
    | digit =>
      exact .goes (.digits (by simp) (forall_mem_concat hds hc)) rfl (isNumberPart_of_isDigit hc)
        fun hpoint => absurd hpoint hc.ne_point
    | point =>
      cases hc
      exact .goes (.decimal hds nofun) rfl rfl fun _ => not_mem_of_isDigit hds
    | letter => exact .ends (isNumberPart_eq_false hc)
  | @decimal whole fraction hw hf =>
    cases part with
    | digit =>
      rw [Run.extend?]
      have hgathers : Run.decimal.Gathers (whole ++ '.' :: fraction ++ [c]) := by
        rw [List.append_assoc, List.cons_append]
        exact .decimal hw (forall_mem_concat hf hc)
      exact .goes hgathers rfl (isNumberPart_of_isDigit hc) fun hpoint => absurd hpoint hc.ne_point
    | point => exact .fails hc rfl rfl (not_mem_of_isDigit hw) (not_mem_of_isDigit hf)
    | letter => exact .ends (isNumberPart_eq_false hc)
  | word hne hletters =>
    cases part with
    | digit => exact .ends (isNamePart_eq_false (isNumberPart_of_isDigit hc))
    | point =>
      cases hc
      exact .ends rfl
    | letter =>
      refine .goes (.word (by simp) (forall_mem_concat hletters hc)) rfl hc ?_
      rintro rfl
      cases hc

/-- Digits do not change what is due, unless there are none. -/
theorem isNumberShapeFrom_digits {ds : List Char} (h : ∀ c ∈ ds, c.isDigit = true) (due : Bool)
    (rest : List Char) :
    isNumberShapeFrom due (ds ++ rest) = isNumberShapeFrom (due && ds.isEmpty) rest := by
  induction ds generalizing due with
  | nil => simp
  | cons d ds ih =>
    have hd := h d List.mem_cons_self
    have hpoint : d ≠ '.' := Part.Has.ne_point hd
    rw [List.cons_append, isNumberShapeFrom, if_neg hpoint, hd, Bool.true_and,
      ih (fun c hc => h c (List.mem_cons_of_mem d hc))]
    simp

theorem isNumberShape_digits (h : ∀ c ∈ text, c.isDigit = true) : isNumberShape text = true := by
  have hdigits := isNumberShapeFrom_digits h false []
  rw [List.append_nil] at hdigits
  exact hdigits

theorem isNumberShape_decimal {whole fraction : List Char} (hw : ∀ c ∈ whole, c.isDigit = true)
    (hf : ∀ c ∈ fraction, c.isDigit = true) :
    isNumberShape (whole ++ '.' :: fraction) = !fraction.isEmpty := by
  have hfraction := isNumberShapeFrom_digits hf true []
  rw [List.append_nil] at hfraction
  rw [isNumberShape, isNumberShapeFrom_digits hw, Bool.false_and, isNumberShapeFrom, if_pos rfl,
    hfraction]
  simp [isNumberShapeFrom]

/-- What becomes of a run when it ends. -/
inductive Finished (run : Run) (text : List Char) : Except ScanFault Kind → Prop
  | ok {kind : Kind} (hkind : kindOfPiece? text = some kind)
      (hgood : ∀ context fault, ¬ BadRun run.sort text context fault) : Finished run text (.ok kind)
  | error {fault : ScanFault} (hbad : BadRun run.sort text fault.context fault) :
      Finished run text (.error fault)

theorem Run.Gathers.inside (h : run.Gathers text) : ∀ c ∈ text, run.sort.has c = true := by
  cases h with
  | digits hne hds => exact fun c hc => isNumberPart_of_isDigit (hds c hc)
  | decimal hw hf =>
    intro c hc
    rcases List.mem_append.mp hc with hc | hc
    · exact isNumberPart_of_isDigit (hw c hc)
    · rcases List.mem_cons.mp hc with rfl | hc
      · rfl
      · exact isNumberPart_of_isDigit (hf c hc)
  | word hne hletters => exact hletters

theorem finished (h : run.Gathers text) : Finished run text (run.kind (String.ofList text)) := by
  have hkind := kindOfPiece?_of_sort h.ne_nil h.inside
  cases h with
  | digits hne hds =>
    rw [Run.kind, String.toList_ofList, if_pos (isNumberShape_digits hds)]
    exact .ok hkind fun context fault hbad =>
      not_mem_of_isDigit hds (List.mem_of_getLast? hbad.getLast?_of_number)
  | @decimal whole fraction hw hf =>
    rw [Run.kind, String.toList_ofList, isNumberShape_decimal hw hf]
    rcases List.eq_nil_or_concat' fraction with rfl | ⟨fraction, last, rfl⟩
    · exact .error (.number (not_mem_of_isDigit hw))
    · rw [if_pos (by simp)]
      refine .ok hkind fun context fault hbad => ?_
      have hlast := hbad.getLast?_of_number
      rw [← List.cons_append, ← List.append_assoc, List.getLast?_concat] at hlast
      exact (Part.Has.ne_point (hf last (by simp))) (Option.some.inj hlast)
  | word hne hletters =>
    rw [Run.kind, String.toList_ofList]
    by_cases hmem : '_' ∈ text
    · have hshape : ¬ isNameShape text = true := by
        intro hshape
        rw [isNameShape, Bool.and_eq_true, List.all_eq_true] at hshape
        exact absurd (hshape.2 '_' hmem) (by decide)
      rw [if_neg hshape]
      exact .error (.name hmem)
    · have hshape : isNameShape text = true := by
        rw [isNameShape, Bool.and_eq_true, List.all_eq_true]
        refine ⟨by simp [hne], fun c hc => ?_⟩
        have hname := hletters c hc
        have hunderscore : c ≠ '_' := by
          rintro rfl
          exact hmem hc
        simpa [isNamePart, hunderscore] using hname
      rw [if_pos hshape]
      exact .ok hkind fun context fault hbad => hmem hbad.underscore_mem

end

/-! ## The scanner between two characters -/

/-- The state of a scanner that has read `done`. -/
inductive Scanned (done : List Char) : Scanner → Prop
  | between {tokens : Array Token} (hends : ∀ sort : RunSort, done.rtakeWhile sort.has = [])
      (htokens : tokens.toList = cut done) : Scanned done ⟨utf8Len done, none, tokens⟩
  | inRun {run : Run} {tokens : Array Token}
      (hgathers : run.Gathers (done.rtakeWhile run.sort.has))
      (htokens : tokens.toList = cut (done.rdropWhile run.sort.has)) :
      Scanned done ⟨utf8Len done, some ⟨run, utf8Len (done.rdropWhile run.sort.has),
        String.ofList (done.rtakeWhile run.sort.has)⟩, tokens⟩

/-- What becomes of a scanner when its run ends. -/
inductive Ended (done : List Char) : Except ScanError Scanner → Prop
  | ok {tokens : Array Token} (htokens : tokens.toList = cut done)
      (hgood : ∀ (sort : RunSort) context fault,
        ¬ BadRun sort (done.rtakeWhile sort.has) context fault) :
      Ended done (.ok ⟨utf8Len done, none, tokens⟩)
  | error {sort : RunSort} {fault : ScanFault}
      (hbad : BadRun sort (done.rtakeWhile sort.has) fault.context fault) :
      Ended done (.error ⟨fault, .ofOffsets (utf8Len (done.rdropWhile sort.has)) (utf8Len done)⟩)

/-- What becomes of a scanner when a character is read. -/
inductive ReadTo (dialect : Dialect) (done : List Char) (c : Char) :
    Except ScanError Scanner → Prop
  | ok {s : Scanner} (h : Scanned (done ++ [c]) s)
      (hnone : ∀ context e, ¬ Meets dialect done (some c) context e) : ReadTo dialect done c (.ok s)
  | error {e : ScanError} (hmeets : Meets dialect done (some c) e.fault.context e)
      (htie : ∀ context e', Meets dialect done (some c) context e' →
        e' = e ∨ ∃ c, e.fault = .strangeChar c) : ReadTo dialect done c (.error e)

section

variable {dialect : Dialect} {done : List Char} {s : Scanner} {c : Char} {sort sort' : RunSort}

/-- What has been read ends with one run at most. -/
theorem sort_unique (h : done.rtakeWhile sort.has ≠ []) (h' : done.rtakeWhile sort'.has ≠ []) :
    sort = sort' := by
  rcases List.eq_nil_or_concat' done with rfl | ⟨done, c, rfl⟩
  · exact absurd rfl h
  rw [ne_eq, List.rtakeWhile_concat] at h h'
  exact RunSort.eq_of_has (by_contra fun hc => h (if_neg hc)) (by_contra fun hc => h' (if_neg hc))

theorem cut_done {run : Run} (hgathers : run.Gathers (done.rtakeWhile run.sort.has)) {kind : Kind}
    (hkind : kindOfPiece? (done.rtakeWhile run.sort.has) = some kind) :
    cut done = cut (done.rdropWhile run.sort.has) ++
      [⟨kind, String.ofList (done.rtakeWhile run.sort.has),
        .ofOffsets (utf8Len (done.rdropWhile run.sort.has)) (utf8Len done)⟩] := by
  have hbefore : ∀ c ∈ (done.rdropWhile run.sort.has).getLast?, run.sort.has c = false :=
    eq_false_of_getLast?_rdropWhile
  have hcut := cut_append_run hgathers.ne_nil hgathers.inside hbefore
  rw [tokenOfPiece?, hkind, ← String.utf8Len_append, List.rdropWhile_append_rtakeWhile] at hcut
  exact hcut

/-- When a run ends, it is the one bad run there may be. -/
theorem Scanned.ended (h : Scanned done s) : Ended done s.endRun := by
  cases h with
  | between hends htokens =>
    refine .ok htokens fun sort context fault hbad => ?_
    exact hbad.ne_nil (hends sort)
  | @inRun run tokens hgathers htokens =>
    have hfinished := finished hgathers
    unfold Scanner.endRun OpenRun.token
    dsimp only
    generalize run.kind (String.ofList (done.rtakeWhile run.sort.has)) = result at hfinished
    cases hfinished with
    | error hbad => exact .error hbad
    | @ok kind hkind hgood =>
      refine .ok ?_ fun sort context fault hbad => ?_
      · rw [Array.toList_push, htokens, cut_done hgathers hkind]
      · obtain rfl := sort_unique hbad.ne_nil hgathers.ne_nil
        exact hgood context fault hbad

/-- What is met at an allowed character that goes on with no run is a bad run. -/
theorem badRun_of_meets {context : ScanContext} {e : ScanError} {next : Option Char}
    (h : Meets dialect done next context e) (hallowed : ∀ c ∈ next, dialect.Allows c)
    (hends : ∀ c ∈ next, ∀ sort : RunSort, sort.has c = true → done.rtakeWhile sort.has = []) :
    ∃ (sort : RunSort) (fault : ScanFault), BadRun sort (done.rtakeWhile sort.has) context fault ∧
      e = ⟨fault, .ofOffsets (utf8Len (done.rdropWhile sort.has)) (utf8Len done)⟩ := by
  cases h with
  | strange hnext hc => exact absurd (hallowed _ hnext) hc
  | point hnext hrun =>
    have hnil := hends '.' hnext .number rfl
    rw [hrun] at hnil
    simp at hnil
  | run hbad hnext => exact ⟨_, _, hbad, rfl⟩

/-- And then there is nothing else to be met. -/
theorem eq_of_meets {context context' : ScanContext} {e : ScanError} {fault : ScanFault}
    {next : Option Char} (h : Meets dialect done next context e)
    (hallowed : ∀ c ∈ next, dialect.Allows c)
    (hends : ∀ c ∈ next, ∀ sort : RunSort, sort.has c = true → done.rtakeWhile sort.has = [])
    (hbad : BadRun sort (done.rtakeWhile sort.has) context' fault) :
    e = ⟨fault, .ofOffsets (utf8Len (done.rdropWhile sort.has)) (utf8Len done)⟩ := by
  obtain ⟨sort', fault', hbad', rfl⟩ := badRun_of_meets h hallowed hends
  obtain rfl := sort_unique hbad.ne_nil hbad'.ne_nil
  rw [hbad.unique hbad']

theorem ReadTo.of_ended {result : Except ScanError Scanner} (h : Ended done result)
    (hallowed : dialect.Allows c)
    (hends : ∀ sort : RunSort, sort.has c = true → done.rtakeWhile sort.has = [])
    {f : Scanner → Scanner}
    (hf : ∀ tokens : Array Token, tokens.toList = cut done →
      Scanned (done ++ [c]) (f ⟨utf8Len done, none, tokens⟩)) :
    ReadTo dialect done c (result.map f) := by
  have hallowed' : ∀ d ∈ some c, dialect.Allows d := by simpa using hallowed
  have hends' : ∀ d ∈ some c, ∀ sort : RunSort, sort.has d = true →
      done.rtakeWhile sort.has = [] := by simpa using hends
  cases h with
  | ok htokens hgood =>
    refine .ok (hf _ htokens) fun context e hmeets => ?_
    obtain ⟨sort, fault, hbad, -⟩ := badRun_of_meets hmeets hallowed' hends'
    exact hgood sort context fault hbad
  | @error sort fault hbad =>
    refine .error (.run hbad ?_) fun context e' hmeets => .inl ?_
    · intro d hd
      exact Bool.eq_false_of_not_eq_true fun hc => hbad.ne_nil (hends' d hd sort hc)
    · exact eq_of_meets hmeets hallowed' hends' hbad

theorem rtakeWhile_concat_of_ended (hends : done.rtakeWhile sort.has = [])
    (hc : sort.has c = true) :
    (done ++ [c]).rtakeWhile sort.has = [c] ∧ (done ++ [c]).rdropWhile sort.has = done := by
  rw [List.rtakeWhile_concat_pos _ _ _ hc, List.rdropWhile_concat_pos _ _ _ hc, hends]
  have hdone := List.rdropWhile_append_rtakeWhile (p := sort.has) (l := done)
  rw [hends, List.append_nil] at hdone
  exact ⟨rfl, hdone⟩

/-- A run that begins. -/
theorem Scanned.begin {part : Part} {tokens : Array Token} (hpart : part.Has c)
    (hends : ∀ sort : RunSort, sort.has c = true → done.rtakeWhile sort.has = [])
    (htokens : tokens.toList = cut done) :
    Scanned (done ++ [c]) (Scanner.begin ⟨utf8Len done, none, tokens⟩ part c) := by
  have hc := Run.sort_begin hpart
  obtain ⟨htake, hdrop⟩ := rtakeWhile_concat_of_ended (hends _ hc) hc
  have hscanned : Scanned (done ++ [c]) ⟨_, some ⟨Run.begin part, _, _⟩, tokens⟩ :=
    .inRun (by rw [htake]; exact Run.gathers_begin hpart) (by rw [hdrop]; exact htokens)
  rw [htake, hdrop, String.utf8Len_append, String.utf8Len_cons, String.utf8Len_nil, Nat.zero_add]
    at hscanned
  exact hscanned

/-- A separator goes on with no run. -/
theorem ended_of_mem_separators (hc : c ∈ separators) (sort : RunSort) (h : sort.has c = true) :
    done.rtakeWhile sort.has = [] := by
  rw [eq_false_of_mem_separators hc sort] at h
  cases h

/-- A separator that is read. -/
theorem Scanned.separate {tokens : Array Token} (hc : c ∈ separators)
    (htokens : tokens.toList = cut done ++ (tokenOfPiece? (utf8Len done) [c]).toList) :
    Scanned (done ++ [c]) ⟨utf8Len done + c.utf8Size, none, tokens⟩ := by
  have hsort := eq_false_of_mem_separators hc
  have hscanned : Scanned (done ++ [c]) ⟨_, none, tokens⟩ :=
    .between (fun sort => List.rtakeWhile_concat_neg _ _ _ (by simp [hsort sort]))
      (by rw [htokens, cut_concat (hsort .number) (hsort .name)])
  rw [String.utf8Len_append, String.utf8Len_cons, String.utf8Len_nil, Nat.zero_add] at hscanned
  exact hscanned

/-- A run that goes on. -/
theorem Scanned.go {run run' : Run} {tokens : Array Token}
    (hgathers : run'.Gathers (done.rtakeWhile run.sort.has ++ [c])) (hsort : run'.sort = run.sort)
    (hc : run.sort.has c = true) (htokens : tokens.toList = cut (done.rdropWhile run.sort.has)) :
    Scanned (done ++ [c]) ⟨utf8Len done + c.utf8Size,
      some ⟨run', utf8Len (done.rdropWhile run.sort.has),
        (String.ofList (done.rtakeWhile run.sort.has)).push c⟩, tokens⟩ := by
  have htake := List.rtakeWhile_concat_pos run.sort.has done c hc
  have hdrop := List.rdropWhile_concat_pos run.sort.has done c hc
  have hscanned : Scanned (done ++ [c]) ⟨_, some ⟨run', _, _⟩, tokens⟩ :=
    .inRun (by rw [hsort, htake]; exact hgathers) (by rw [hsort, hdrop]; exact htokens)
  have hpush : String.ofList (done.rtakeWhile run.sort.has ++ [c]) =
      (String.ofList (done.rtakeWhile run.sort.has)).push c := by
    apply String.toList_injective
    simp
  rw [hsort, htake, hdrop, hpush, String.utf8Len_append, String.utf8Len_cons, String.utf8Len_nil,
    Nat.zero_add] at hscanned
  exact hscanned

/-- A run that goes on has met nothing. -/
theorem not_meets_of_goes {context : ScanContext} {e : ScanError}
    (hne : done.rtakeWhile sort.has ≠ []) (hallowed : dialect.Allows c) (hc : sort.has c = true)
    (hpoint : c = '.' → '.' ∉ done.rtakeWhile sort.has) :
    ¬ Meets dialect done (some c) context e := by
  intro hmeets
  cases hmeets with
  | strange hnext hstrange =>
    cases hnext
    exact hstrange hallowed
  | @point first second hnext hrun =>
    cases hnext
    obtain rfl : sort = .number := sort_unique hne (by rw [hrun]; simp)
    exact hpoint rfl (by rw [hrun]; simp)
  | run hbad hnext =>
    obtain rfl := sort_unique hne hbad.ne_nil
    rw [hnext c rfl] at hc
    cases hc

/-- A second point is met where it stands. -/
theorem ReadTo.of_point {first second : List Char}
    (hrun : done.rtakeWhile RunSort.number.has = first ++ '.' :: second) (hfirst : '.' ∉ first)
    (hsecond : '.' ∉ second) : ReadTo dialect done '.'
      (.error ⟨.repeatedPoint, .ofOffsets (utf8Len done) (utf8Len done + 1)⟩) := by
  refine .error (.point rfl hrun hfirst hsecond) fun context e' hmeets => .inl ?_
  cases hmeets with
  | strange hnext hstrange =>
    cases hnext
    exact absurd (.inl rfl) hstrange
  | point => rfl
  | @run sort context fault hbad hnext =>
    obtain rfl : sort = .number := sort_unique hbad.ne_nil (by rw [hrun]; simp)
    exact absurd (hnext '.' rfl) (by decide)

/-- A part of a number or a name is read. -/
theorem Scanned.readPart {part : Part} (h : Scanned done s) (hpart : part.Has c)
    (hallowed : dialect.Allows c) : ReadTo dialect done c (s.readPart part c) := by
  have hended := h.ended
  cases h with
  | between hends htokens =>
    exact ReadTo.of_ended hended hallowed (fun sort _ => hends sort) (f := fun s => s.begin part c)
      fun tokens htokens => .begin hpart (fun sort _ => hends sort) htokens
  | @inRun run tokens hgathers htokens =>
    have hextended := extended hgathers hpart
    unfold Scanner.readPart
    dsimp only
    generalize run.extend? part = result at hextended
    cases hextended with
    | goes hgathers' hsort hc hpoint =>
      exact .ok (.go hgathers' hsort hc htokens) fun context e =>
        not_meets_of_goes hgathers.ne_nil hallowed hc hpoint
    | ends hc =>
      have hends : ∀ sort : RunSort, sort.has c = true → done.rtakeWhile sort.has = [] := by
        intro sort hsort
        by_contra hne
        obtain rfl := sort_unique hne hgathers.ne_nil
        rw [hc] at hsort
        cases hsort
      exact ReadTo.of_ended hended hallowed hends fun tokens htokens => .begin hpart hends htokens
    | fails hc hrun htext hfirst hsecond =>
      subst hc hrun
      exact ReadTo.of_point htext hfirst hsecond

/-- A character is read. -/
theorem Scanned.read (h : Scanned done s) (dialect : Dialect) (c : Char) :
    ReadTo dialect done c (s.read dialect c) := by
  have hoffset : s.offset = utf8Len done := by
    cases h <;> rfl
  have hclass := classified dialect c
  unfold Scanner.read
  generalize dialect.classOf? c = result at hclass
  cases hclass with
  | part hc hallowed => exact h.readPart hc hallowed
  | mark hc hkind =>
    refine ReadTo.of_ended h.ended (.inr (.inl hc)) (ended_of_mem_separators hc) ?_
    intro tokens htokens
    refine .separate hc ?_
    simp [htokens, tokenOfPiece?, hkind, Scanner.spanOf, String.utf8Len_cons]
  | blank hc hkind =>
    refine ReadTo.of_ended h.ended (.inr (.inl hc)) (ended_of_mem_separators hc) ?_
    intro tokens htokens
    refine .separate hc ?_
    simp [htokens, tokenOfPiece?, hkind]
  | strange hc =>
    have hmeets : Meets dialect done (some c) .betweenTokens _ := .strange rfl hc
    rw [← hoffset] at hmeets
    exact .error hmeets fun context e' _ => .inr ⟨c, rfl⟩

/-! ## Whole sources -/

theorem readAll_concat (dialect : Dialect) (s : Scanner) (cs : List Char) (c : Char) :
    s.readAll dialect (cs ++ [c]) = s.readAll dialect cs >>= fun s => s.read dialect c := by
  simp [Scanner.readAll]

/-- A scanner that has come so far is in the state of what it has read, and has
met nothing. -/
theorem scanned_of_readAll {cs : List Char} (h : Scanner.readAll dialect {} cs = .ok s) :
    Scanned cs s ∧ ∀ pre c post, cs = pre ++ c :: post →
      ∀ context e, ¬ Meets dialect pre (some c) context e := by
  induction cs using List.reverseRecOn generalizing s with
  | nil =>
    cases h
    exact ⟨.between (fun _ => rfl) rfl, fun pre c post hcs => absurd hcs.symm (by simp)⟩
  | append_singleton cs d ih =>
    rw [readAll_concat] at h
    cases hcs : Scanner.readAll dialect {} cs with
    | error e =>
      rw [hcs] at h
      cases h
    | ok s' =>
      obtain ⟨hscanned, hnone⟩ := ih hcs
      rw [hcs] at h
      have hread := hscanned.read dialect d
      rw [show s'.read dialect d = .ok s from h] at hread
      cases hread with
      | ok hscanned' hnone' =>
        refine ⟨hscanned', fun pre c post hsplit => ?_⟩
        rcases List.eq_nil_or_concat' post with rfl | ⟨post, last, rfl⟩
        · obtain ⟨rfl, hcd⟩ := List.append_inj' hsplit rfl
          cases hcd
          exact hnone'
        · rw [← List.cons_append, ← List.append_assoc] at hsplit
          exact hnone pre c post (List.append_inj' hsplit rfl).1

/-- A scanner that fails does so at one of the characters. -/
theorem readAll_eq_error {cs : List Char} {e : ScanError}
    (h : Scanner.readAll dialect {} cs = .error e) :
    ∃ pre c post s, cs = pre ++ c :: post ∧ Scanner.readAll dialect {} pre = .ok s ∧
      s.read dialect c = .error e := by
  induction cs using List.reverseRecOn with
  | nil => cases h
  | append_singleton cs d ih =>
    rw [readAll_concat] at h
    cases hcs : Scanner.readAll dialect {} cs with
    | error e' =>
      rw [hcs] at h
      cases h
      obtain ⟨pre, c, post, s, rfl, hpre, hread⟩ := ih hcs
      exact ⟨pre, c, post ++ [d], s, by simp, hpre, hread⟩
    | ok s =>
      rw [hcs] at h
      exact ⟨cs, d, [], s, rfl, hcs, h⟩

/-- What a scan comes to. -/
inductive ScanOutcome (dialect : Dialect) (source : List Char) :
    Except ScanError (List Token) → Prop
  | tokens (h : Acceptable dialect source) : ScanOutcome dialect source (.ok (cut source))
  | fault {e : ScanError} (h : FirstFault dialect source e) : ScanOutcome dialect source (.error e)

theorem scanOutcome (dialect : Dialect) (source : String) :
    ScanOutcome dialect source.toList (scan dialect source) := by
  unfold scan
  cases hread : Scanner.readAll dialect {} source.toList with
  | error e =>
    obtain ⟨pre, c, post, s, hsource, hpre, hc⟩ := readAll_eq_error hread
    obtain ⟨hscanned, hnone⟩ := scanned_of_readAll hpre
    have hstep := hscanned.read dialect c
    rw [hc] at hstep
    rw [hsource]
    cases hstep with
    | error hmeets htie => exact .fault (.of_meets hmeets hnone htie)
  | ok s =>
    obtain ⟨hscanned, hnone⟩ := scanned_of_readAll hread
    have hended := hscanned.ended
    show ScanOutcome dialect source.toList (s.endRun >>= fun s => pure s.tokens.toList)
    generalize s.endRun = result at hended
    cases hended with
    | ok htokens hgood =>
      show ScanOutcome dialect source.toList (.ok _)
      rw [htokens]
      refine .tokens (acceptable_iff_no_fault.mpr (no_fault_of_not_meets hnone ?_))
      intro context e hmeets
      obtain ⟨sort, fault, hbad, -⟩ := badRun_of_meets hmeets nofun nofun
      exact hgood sort context fault hbad
    | @error sort fault hbad =>
      have hfirst : FirstFault dialect (source.toList ++ []) _ :=
        .of_meets (.run hbad nofun) hnone fun context e' hmeets =>
          .inl (eq_of_meets hmeets nofun nofun hbad)
      rw [List.append_nil] at hfirst
      exact .fault hfirst

theorem acceptable_of_scan {source : String} {ts : List Token} (h : scan dialect source = .ok ts) :
    Acceptable dialect source.toList ∧ ts = cut source.toList := by
  have houtcome := scanOutcome dialect source
  rw [h] at houtcome
  cases houtcome with
  | tokens hacceptable => exact ⟨hacceptable, rfl⟩

theorem scan_of_acceptable {source : String} (h : Acceptable dialect source.toList) :
    scan dialect source = .ok (cut source.toList) := by
  have houtcome := scanOutcome dialect source
  generalize scan dialect source = result at houtcome
  cases houtcome with
  | tokens _ => rfl
  | fault hfault => exact absurd h hfault.not_acceptable

theorem firstFault_of_scan {source : String} {e : ScanError} (h : scan dialect source = .error e) :
    FirstFault dialect source.toList e := by
  have houtcome := scanOutcome dialect source
  rw [h] at houtcome
  cases houtcome with
  | fault hfault => exact hfault

theorem scan_of_firstFault {source : String} {e : ScanError}
    (h : FirstFault dialect source.toList e) : scan dialect source = .error e := by
  have houtcome := scanOutcome dialect source
  generalize scan dialect source = result at houtcome
  cases houtcome with
  | tokens hacceptable => exact absurd hacceptable h.not_acceptable
  | fault hfault => rw [h.unique hfault]

/-- A source is scanned exactly when it is acceptable, and its tokens are those
of its pieces: of each run of digits and points a number, of each run of letters
a name, of each operator and bracket one token of its kind, and of blanks none,
with the text of the piece and the offsets at which it stands. -/
theorem scan_eq_ok_iff {dialect : Dialect} {source : String} {ts : List Token} :
    scan dialect source = .ok ts ↔
      Acceptable dialect source.toList ∧ ts = cut source.toList := by
  have houtcome := scanOutcome dialect source
  generalize scan dialect source = result at houtcome
  cases houtcome with
  | tokens h =>
    constructor
    · intro hts
      cases hts
      exact ⟨h, rfl⟩
    · rintro ⟨-, rfl⟩
      rfl
  | fault h =>
    constructor
    · nofun
    · rintro ⟨hacceptable, -⟩
      exact absurd hacceptable h.not_acceptable

/-- Runs that touch are tokens of their own, and a blank is a byte of none. -/
example : scan .symbolic "12x -.5" = .ok [⟨.number, "12", ⟨0, 2⟩⟩, ⟨.name, "x", ⟨2, 3⟩⟩,
    ⟨.operator .sub, "-", ⟨4, 5⟩⟩, ⟨.number, ".5", ⟨5, 7⟩⟩] := by decide

/-- A source that is not scanned gets its first fault for an error, and no
other. -/
theorem scan_eq_error_iff {dialect : Dialect} {source : String} {e : ScanError} :
    scan dialect source = .error e ↔ FirstFault dialect source.toList e := by
  have houtcome := scanOutcome dialect source
  generalize scan dialect source = result at houtcome
  cases houtcome with
  | tokens h =>
    constructor
    · nofun
    · intro hfirst
      exact absurd h hfirst.not_acceptable
  | fault h =>
    constructor
    · intro he
      cases he
      exact h
    · intro hfirst
      rw [hfirst.unique h]

/-- A character that is not allowed goes before the run that it ends. -/
example : scan .symbolic "1.é" = .error ⟨.strangeChar 'é', ⟨2, 4⟩⟩ := by decide

end

end Calculator
