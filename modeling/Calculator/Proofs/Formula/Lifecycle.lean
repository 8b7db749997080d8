import Calculator.Proofs.Expr.Environment
import Calculator.Proofs.Expr.Evaluation
import Calculator.Proofs.Formula.Leaves
import Calculator.Proofs.Formula.Order
import Calculator.Proofs.Token.Numerals

/-!
# The life of a formula

A formula that comes from a source gets its numbers in stages, until it is
closed and has a value.

An expression is `Sound` when nothing but a name that is left can keep it from
having a value: its joins are operators', and its numbers are read.  What a
source makes is sound (`sound_of_scan`), and a substitution keeps it so
(`Sound.substitute`), since the numbers that it writes are read back.  The
faults of a sound expression are its open leaves, one for one (`Sound.faults_eq`).

`Lifecycle` says what follows: being closed, having a value, and having a number
for every name come to the same, and the fault is otherwise that of the first
name in the source that has none.
-/

namespace Calculator

open Assembly (mem_names_of_ofTokens)

/-! ## Sound expressions -/

namespace Expr

/-- Nothing but a name that is left keeps the expression from having a value. -/
structure Sound (e : Expr) : Prop where
  built : e.Built
  kinds : e.WellKinded
  readable : ∀ t ∈ e.leaves, t.kind ≠ .name → ∃ value, Numeral.read? t.text = some value

variable {e : Expr}

theorem WellKinded.substitute (h : e.WellKinded) (bindings : Bindings) :
    (e.substitute bindings).WellKinded := by
  induction e with
  | leaf t closed =>
    rcases t.bound_or_unbound bindings with ⟨value, hk, hb⟩ | hunbound
    · rw [substitute_leaf_bound hk hb]
      rfl
    · rw [substitute_leaf_unbound hunbound]
      exact h
  | join t left right closed ihl ihr =>
    obtain ⟨hop, hleft, hright⟩ := h
    exact ⟨hop, ihl hleft, ihr hright⟩

theorem Sound.substitute (h : e.Sound) (bindings : Bindings) : (e.substitute bindings).Sound := by
  refine ⟨h.built.substitute bindings, h.kinds.substitute bindings, ?_⟩
  intro t ht hk
  rw [leaves_substitute] at ht
  obtain ⟨u, hu, rfl⟩ := List.mem_map.mp ht
  rcases u.bound_or_unbound bindings with ⟨value, hname, hb⟩ | hunbound
  · rw [Token.resolve_bound hname hb]
    exact ⟨value, Numeral.read?_write value⟩
  · rw [Token.resolve_unbound hunbound] at hk ⊢
    exact h.readable u hu hk

/-- The only faults are those of the names that are left. -/
theorem faults_eq_openLeaves (hkinds : e.WellKinded)
    (hread : ∀ t ∈ e.leaves, t.kind ≠ .name → ∃ value, Numeral.read? t.text = some value) :
    e.faults = e.openLeaves.map Token.unresolved := by
  induction e with
  | leaf t closed =>
    rw [faults_leaf]
    by_cases hk : t.kind = .name
    · simp [fault?, openLeaves, leaves, hk]
    · obtain ⟨value, hvalue⟩ := hread t List.mem_cons_self hk
      simp [fault?, openLeaves, leaves, hk, hvalue]
  | join t left right closed ihl ihr =>
    obtain ⟨⟨op, hop⟩, hleft, hright⟩ := hkinds
    have hl := ihl hleft fun u hu => hread u (List.mem_append_left _ hu)
    have hr := ihr hright fun u hu => hread u (List.mem_append_right _ hu)
    rw [faults_join, hl, hr]
    simp [fault?, hop, Kind.operation?, openLeaves, leaves]

theorem Sound.faults_eq (h : e.Sound) : e.faults = e.openLeaves.map Token.unresolved :=
  faults_eq_openLeaves h.kinds h.readable

/-- A sound expression has a value, or the first name that is left for a
fault. -/
theorem Sound.evaluate_eq (h : e.Sound) :
    e.openLeaves = [] ∧ (∃ x, e.evaluate = .ok x) ∨
      ∃ t rest, e.openLeaves = t :: rest ∧ e.evaluate = .error t.unresolved := by
  have hfaults := h.faults_eq
  cases hopen : e.openLeaves with
  | nil =>
    rw [hopen, List.map_nil] at hfaults
    exact .inl ⟨rfl, exists_value_iff_faults.mpr hfaults⟩
  | cons t rest =>
    rw [hopen, List.map_cons] at hfaults
    exact .inr ⟨t, rest, rfl, evaluate_eq_error_iff_faults.mpr (by rw [hfaults, List.head?_cons])⟩

end Expr

/-- The formula of a source that is scanned is sound. -/
theorem sound_of_scan {dialect : Dialect} {source : String} {ts : List Token} {f : Formula}
    (hscan : scan dialect source = .ok ts) (hts : Formula.ofTokens ts = .ok f) : f.root.Sound := by
  refine ⟨built_of_ofTokens hts, wellKinded_of_ofTokens hts, ?_⟩
  intro t ht hk
  rw [leaves_of_ofTokens hts, List.mem_filter] at ht
  obtain ⟨hmem, hoperand⟩ := ht
  have hnumber : t.kind = .number := by
    cases hkind : t.kind with
    | number => rfl
    | name => exact absurd hkind hk
    | operator | opening | closing =>
      rw [hkind] at hoperand
      cases hoperand
  exact exists_read_of_scan hscan hmem hnumber

/-- As it comes from its source a formula has a value, unless there is a name
among the tokens. -/
theorem value_or_name_of_scan {dialect : Dialect} {source : String} {ts : List Token} {f : Formula}
    (hscan : scan dialect source = .ok ts) (hts : Formula.ofTokens ts = .ok f) :
    (∀ t ∈ ts, t.kind ≠ .name) ∧ (∃ x, f.evaluate = .ok x) ∨
      ∃ t ∈ ts, t.kind = .name ∧ f.evaluate = .error t.unresolved := by
  have hevaluate := (sound_of_scan hscan hts).evaluate_eq
  rw [openLeaves_of_ofTokens hts] at hevaluate
  rcases hevaluate with ⟨hnone, hx⟩ | ⟨t, rest, hsome, herror⟩
  · refine .inl ⟨fun t ht hk => ?_, hx⟩
    exact List.filter_eq_nil_iff.mp hnone t ht (decide_eq_true hk)
  · have hmem : t ∈ ts.filter (·.kind = .name) := by
      rw [hsome]
      exact List.mem_cons_self
    obtain ⟨ht, hk⟩ := List.mem_filter.mp hmem
    exact .inr ⟨t, ht, of_decide_eq_true hk, herror⟩

/-! ## Stages -/

/-- Every name gets a number in one of the stages. -/
def BindsAll (stages : List Bindings) (names : Names) : Prop :=
  ∀ name ∈ names, ∃ bindings ∈ stages, name ∈ bindings

/-- A token that is a name and gets no number in any of the stages. -/
def Token.IsMissing (stages : List Bindings) (t : Token) : Prop :=
  t.kind = .name ∧ ∀ bindings ∈ stages, t.text ∉ bindings

instance (stages : List Bindings) (t : Token) : Decidable (t.IsMissing stages) :=
  inferInstanceAs (Decidable (t.kind = .name ∧ ∀ bindings ∈ stages, t.text ∉ bindings))

/-- What may be said of the formula `g` that a source of the tokens `ts` has
become after the given stages. -/
structure Lifecycle (ts : List Token) (stages : List Bindings) (g : Formula) : Prop where
  /-- It is closed when every name has been given a number, and only then. -/
  closed : g.isClosed = true ↔ BindsAll stages g.names
  /-- And then, and only then, it has a value. -/
  value : (∃ x, g.evaluate = .ok x) ↔ BindsAll stages g.names
  /-- Otherwise its fault is that of the first name in the source that has been
  given none. -/
  missing : ¬ BindsAll stages g.names →
    ∃ t, ts.find? (·.IsMissing stages) = some t ∧
      g.evaluate = .error ⟨.unresolvedName t.text, t.span⟩
  /-- There are no other faults. -/
  unresolved : ∀ e, g.evaluate = .error e → ∃ name, e.fault = .unresolvedName name

namespace Formula

section

variable {ts : List Token} {f : Formula}

theorem names_substituteAll (stages : List Bindings) (f : Formula) :
    (f.substituteAll stages).names = f.names :=
  substituteAll_induction (P := fun g => g.names = f.names) (fun _ _ h => h) rfl stages

theorem sound_substituteAll (h : f.root.Sound) (stages : List Bindings) :
    (f.substituteAll stages).root.Sound :=
  substituteAll_induction (P := fun g => g.root.Sound) (fun bindings _ h => h.substitute bindings)
    h stages

/-- The names that are left after some stages are those that none of them
binds. -/
theorem openLeaves_substituteAll (stages : List Bindings) (f : Formula) :
    (f.substituteAll stages).root.openLeaves =
      f.root.openLeaves.filter fun t => ∀ bindings ∈ stages, t.text ∉ bindings := by
  induction stages generalizing f with
  | nil => simp [substituteAll]
  | cons bindings stages ih =>
    rw [substituteAll_cons, ih, substitute, Expr.openLeaves_substitute, List.filter_filter]
    simp [Bool.and_comm]

/-- And they are names in the source. -/
theorem openLeaves_of_tokens (h : Formula.ofTokens ts = .ok f) (stages : List Bindings) :
    (f.substituteAll stages).root.openLeaves = ts.filter (·.IsMissing stages) := by
  rw [openLeaves_substituteAll, openLeaves_of_ofTokens h, List.filter_filter]
  refine List.filter_congr fun t _ => ?_
  rw [Bool.eq_iff_iff, decide_eq_true_iff, Token.IsMissing]
  simp [and_comm]

/-- Every name gets a number when no name in the source is missing. -/
theorem bindsAll_iff (h : Formula.ofTokens ts = .ok f) (stages : List Bindings) :
    BindsAll stages f.names ↔ ts.filter (·.IsMissing stages) = [] := by
  rw [List.filter_eq_nil_iff]
  constructor
  · intro hbinds t ht hmissing
    obtain ⟨hk, hnone⟩ := of_decide_eq_true hmissing
    have hname := (mem_names_of_ofTokens h).mpr ⟨t, ht, hk, rfl⟩
    obtain ⟨bindings, hmem, hbound⟩ := hbinds t.text hname
    exact hnone bindings hmem hbound
  · intro hnone name hname
    obtain ⟨t, ht, hk, rfl⟩ := (mem_names_of_ofTokens h).mp hname
    have hmissing := hnone t ht
    by_contra hunbound
    exact hmissing (decide_eq_true ⟨hk, fun bindings hb hmem => hunbound ⟨bindings, hb, hmem⟩⟩)

end

end Formula

/-- A formula that comes from a source is closed after some stages, and has a
value, when these give every name a number; and if they do not, evaluation tells
the first name in the source that has none, and where it stands. -/
theorem lifecycle_of_ofSource {dialect : Dialect} {source : String} {f : Formula}
    (h : Formula.ofSource dialect source = .ok f) (stages : List Bindings) :
    ∃ ts, scan dialect source = .ok ts ∧ Lifecycle ts stages (f.substituteAll stages) := by
  obtain ⟨ts, hscan, hts⟩ := ofSource_eq_ok_iff.mp h
  have hsound := Formula.sound_substituteAll (sound_of_scan hscan hts) stages
  have hclosed := hsound.built.isClosed_iff
  have hevaluate := hsound.evaluate_eq
  have hbinds := Formula.bindsAll_iff hts stages
  rw [Formula.openLeaves_of_tokens hts] at hclosed hevaluate
  rw [← Formula.names_substituteAll stages f] at hbinds
  refine ⟨ts, hscan, ?_⟩
  rcases hevaluate with ⟨hnone, x, hx⟩ | ⟨t, rest, hsome, herror⟩
  · have hall := hbinds.mpr hnone
    refine ⟨hclosed.trans hbinds.symm, iff_of_true ⟨x, hx⟩ hall, (absurd hall ·), ?_⟩
    intro e he
    rw [Formula.evaluate, hx] at he
    cases he
  · have hunbound : ¬ BindsAll stages (f.substituteAll stages).names := by
      rw [hbinds, hsome]
      nofun
    refine ⟨hclosed.trans hbinds.symm, iff_of_false ?_ hunbound, fun _ => ⟨t, ?_, herror⟩, ?_⟩
    · rintro ⟨x, hx⟩
      rw [Formula.evaluate, herror] at hx
      cases hx
    · rw [← List.head?_filter, hsome, List.head?_cons]
    · intro e he
      rw [Formula.evaluate, herror] at he
      cases he
      exact ⟨t.text, rfl⟩

/-- When `x` has a number, what keeps `x+y*z` from a value is `y`. -/
theorem lifecycle_of_ofSource_sum :
    ∃ f ts, Formula.ofSource .symbolic "x+y*z" = .ok f ∧ scan .symbolic "x+y*z" = .ok ts ∧
      Lifecycle ts [{("x", 1)}] (f.substituteAll [{("x", 1)}]) ∧
      (f.substituteAll [{("x", 1)}]).evaluate = .error ⟨.unresolvedName "y", ⟨2, 3⟩⟩ := by
  obtain ⟨f, hsource, hname⟩ : ∃ f, Formula.ofSource .symbolic "x+y*z" = .ok f ∧ "y" ∈ f.names :=
    ⟨_, rfl, by decide⟩
  obtain ⟨ts, hscan, hlife⟩ := lifecycle_of_ofSource hsource [{("x", 1)}]
  have hy : "y" ∉ ({("x", 1)} : Bindings) := by simp
  have hunbound : ¬ BindsAll [{("x", 1)}] (f.substituteAll [{("x", 1)}]).names := by
    intro hbinds
    rw [Formula.names_substituteAll] at hbinds
    obtain ⟨bindings, hmem, hbound⟩ := hbinds "y" hname
    rw [List.mem_singleton.mp hmem] at hbound
    exact hy hbound
  obtain ⟨t, hfirst, herror⟩ := hlife.missing hunbound
  refine ⟨f, ts, hsource, hscan, hlife, ?_⟩
  have hts : scan .symbolic "x+y*z" = .ok [⟨.name, "x", ⟨0, 1⟩⟩, ⟨.operator .add, "+", ⟨1, 2⟩⟩,
    ⟨.name, "y", ⟨2, 3⟩⟩, ⟨.operator .mul, "*", ⟨3, 4⟩⟩, ⟨.name, "z", ⟨4, 5⟩⟩] := by decide
  rw [hscan] at hts
  cases hts
  have hfirst' : some ⟨.name, "y", ⟨2, 3⟩⟩ = some t := by
    simpa [Token.IsMissing] using hfirst
  cases hfirst'
  exact herror

end Calculator
