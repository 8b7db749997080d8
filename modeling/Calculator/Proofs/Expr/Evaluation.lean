import Calculator.Expr.Evaluation
import Mathlib.Data.List.Basic

/-!
# Where an evaluation fails

`fault?` is what is wrong with a node by itself: a name that has no number, a
text that is not read, or a join that is not an operator's.  The `faults` of an
expression are those of its nodes, each node's before those of its left and then
its right operand.

Evaluation gives a value when there are none, and the first of them otherwise
(`valueOutcome`).  Nothing is assumed of the tokens, nor of the marks.

`evaluate_by_preorder` says this of the nodes themselves.  A node is `Bad` by what
its token is, and the error is that of the bad node that comes first.
-/

namespace Calculator

theorem Kind.operation?_eq_none_iff {k : Kind} :
    k.operation? = none ↔ ∀ operation, k ≠ .operator operation := by
  cases k <;> simp [operation?]

/-- The fault of a name that has no number. -/
def Token.unresolved (t : Token) : EvaluationError := ⟨.unresolvedName t.text, t.span⟩

namespace Expr

/-- What is wrong with the topmost node. -/
def fault? : Expr → Option EvaluationError
  | leaf token _ =>
    if token.kind = .name then some token.unresolved
    else match Numeral.read? token.text with
      | some _ => none
      | none => some ⟨.malformedNumber token.text, token.span⟩
  | join token _ _ _ =>
    match token.kind.operation? with
    | some _ => none
    | none => some ⟨.notAnOperator token.kind, token.span⟩

/-- The expressions within an expression, each before its operands. -/
def preorder : Expr → List Expr
  | e@(leaf ..) => [e]
  | e@(join _ left right _) => e :: (left.preorder ++ right.preorder)

/-- What is wrong with an expression. -/
def faults (e : Expr) : List EvaluationError := e.preorder.filterMap fault?

section

variable {t : Token} {closed : Bool} {left right : Expr}

theorem faults_leaf : (leaf t closed).faults = (leaf t closed).fault?.toList := by
  rw [faults, preorder, List.filterMap_cons]
  cases (leaf t closed).fault? <;> rfl

theorem faults_join :
    (join t left right closed).faults =
      (join t left right closed).fault?.toList ++ (left.faults ++ right.faults) := by
  rw [faults, preorder, List.filterMap_cons, List.filterMap_append]
  cases (join t left right closed).fault? <;> rfl

/-- What becomes of an evaluation. -/
inductive ValueOutcome (e : Expr) : Except EvaluationError Float → Prop
  | value {x : Float} (h : e.faults = []) : ValueOutcome e (.ok x)
  | fault {err : EvaluationError} (h : e.faults.head? = some err) : ValueOutcome e (.error err)

theorem valueOutcome_leaf (t : Token) (closed : Bool) :
    ValueOutcome (leaf t closed) (leaf t closed).evaluate := by
  rw [evaluate, Token.value]
  split
  · rename_i hk
    exact .fault (by simp [faults_leaf, fault?, hk, Token.unresolved])
  · rename_i hk
    split
    · rename_i x hread
      exact .value (by simp [faults_leaf, fault?, hk, hread])
    · rename_i hread
      exact .fault (by simp [faults_leaf, fault?, hk, hread])

theorem valueOutcome (e : Expr) : ValueOutcome e e.evaluate := by
  induction e with
  | leaf t closed => exact valueOutcome_leaf t closed
  | join t left right closed ihl ihr =>
    rw [evaluate]
    split
    · rename_i hop
      exact .fault (by simp [faults_join, fault?, hop])
    · rename_i op hop
      have hjoin : (join t left right closed).faults = left.faults ++ right.faults := by
        simp [faults_join, fault?, hop]
      generalize left.evaluate = x at ihl
      generalize right.evaluate = y at ihr
      cases ihl with
      | fault hleft => exact .fault (by rw [hjoin, List.head?_append, hleft]; rfl)
      | value hleft =>
        cases ihr with
        | fault hright => exact .fault (by rw [hjoin, hleft, List.nil_append, hright])
        | value hright => exact .value (by rw [hjoin, hleft, hright, List.append_nil])

theorem exists_value_iff_faults {e : Expr} : (∃ x, e.evaluate = .ok x) ↔ e.faults = [] := by
  have houtcome := e.valueOutcome
  generalize e.evaluate = result at houtcome
  cases houtcome with
  | @value x hnone => exact iff_of_true ⟨x, rfl⟩ hnone
  | fault hfirst =>
    refine iff_of_false nofun fun hnone => ?_
    rw [hnone] at hfirst
    cases hfirst

theorem evaluate_eq_error_iff_faults {e : Expr} {err : EvaluationError} :
    e.evaluate = .error err ↔ e.faults.head? = some err := by
  have houtcome := e.valueOutcome
  generalize e.evaluate = result at houtcome
  cases houtcome with
  | value hnone => simp [hnone]
  | fault hfirst => simp [hfirst]

end

/-! ## The first bad node -/

/-- A node that has no value whatever is below it, and the error it gives. -/
inductive Bad : Expr → EvaluationError → Prop
  /-- A leaf that is a name. -/
  | name {t : Token} {closed : Bool} (hk : t.kind = .name) :
      Bad (leaf t closed) ⟨.unresolvedName t.text, t.span⟩
  /-- Any other leaf whose text is not read. -/
  | text {t : Token} {closed : Bool} (hk : t.kind ≠ .name) (hread : Numeral.read? t.text = none) :
      Bad (leaf t closed) ⟨.malformedNumber t.text, t.span⟩
  /-- A join that is not an operator's. -/
  | joint {t : Token} {left right : Expr} {closed : Bool}
      (hk : ∀ operation, t.kind ≠ .operator operation) :
      Bad (join t left right closed) ⟨.notAnOperator t.kind, t.span⟩

/-- A node that is bad in one way or another. -/
def IsBad (s : Expr) : Prop := ∃ err, s.Bad err

/-- The error is that of the first bad node, where each node comes before its
left and then its right operand. -/
def FirstBad (e : Expr) (err : EvaluationError) : Prop :=
  ∃ before s after, e.preorder = before ++ s :: after ∧ s.Bad err ∧ ∀ s' ∈ before, ¬ s'.IsBad

/-- An expression with its marks set, whatever they were. -/
def unmarked : Expr → Expr
  | leaf token _ => leaf token true
  | join token left right _ => join token left.unmarked right.unmarked true

section

variable {s e : Expr} {err : EvaluationError}

theorem bad_iff_fault? : s.Bad err ↔ s.fault? = some err := by
  constructor
  · intro h
    cases h with
    | name hk => simp [fault?, hk, Token.unresolved]
    | text hk hread => simp [fault?, hk, hread]
    | joint hk => simp [fault?, Kind.operation?_eq_none_iff.mpr hk]
  · intro h
    unfold fault? at h
    split at h
    · split at h
      · rename_i hk
        cases h
        exact .name hk
      · rename_i hk
        split at h
        · cases h
        · rename_i hread
          cases h
          exact .text hk hread
    · split at h
      · cases h
      · rename_i hop
        cases h
        exact .joint (Kind.operation?_eq_none_iff.mp hop)

theorem not_isBad_iff : ¬ s.IsBad ↔ s.fault? = none := by
  simp only [IsBad, bad_iff_fault?, not_exists, Option.eq_none_iff_forall_ne_some, ne_eq]

theorem firstBad_iff : e.FirstBad err ↔ e.faults.head? = some err := by
  simp only [FirstBad, bad_iff_fault?, not_isBad_iff]
  rw [faults, List.head?_filterMap, List.findSome?_eq_some_iff]

theorem faults_eq_nil_iff : e.faults = [] ↔ ∀ s ∈ e.preorder, ¬ s.IsBad := by
  simp only [not_isBad_iff]
  exact List.filterMap_eq_nil_iff

theorem evaluate_unmarked (e : Expr) : e.unmarked.evaluate = e.evaluate := by
  induction e with
  | leaf t closed => rfl
  | join t left right closed ihl ihr => rw [unmarked, evaluate, evaluate, ihl, ihr]

/-- An expression has a value when none of its nodes is bad, and the error of the
first bad node otherwise.  The marks make no difference. -/
theorem evaluate_by_preorder (e : Expr) :
    ((∃ x, e.evaluate = .ok x) ↔ ∀ s ∈ e.preorder, ¬ s.IsBad) ∧
      (∀ err, e.evaluate = .error err ↔ e.FirstBad err) ∧
      e.unmarked.evaluate = e.evaluate := by
  refine ⟨?_, fun err => ?_, evaluate_unmarked e⟩
  · rw [exists_value_iff_faults, faults_eq_nil_iff]
  · rw [evaluate_eq_error_iff_faults, firstBad_iff]

end

end Expr

end Calculator
