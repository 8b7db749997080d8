import Calculator.Error

/-!
# From source to formula to value

The way of a source through the library: it is cut into tokens, the tokens
make a formula, and the formula has a value once all its names have numbers.
-/

namespace Calculator

/-- The formula that a source writes. -/
def Formula.ofSource (dialect : Dialect) (source : String) : Except Error Formula :=
  match scan dialect source with
  | .error e => .error (.scan e)
  | .ok tokens => (Formula.ofTokens tokens).mapError .structural

/-- The value of a source that holds no names.  A name is not refused until
the value is asked for. -/
def evaluate (source : String) : Except Error Float :=
  match Formula.ofSource .symbolic source with
  | .error e => .error e
  | .ok formula => formula.evaluate.mapError .evaluation

/-! ## How far a source gets -/

/-- What becomes of a source, with what it was on its way there. -/
inductive SourceOutcome (dialect : Dialect) (source : String) : Except Error Formula → Prop
  | scan {e : ScanError} (hscan : scan dialect source = .error e) :
      SourceOutcome dialect source (.error (.scan e))
  | structural {ts : List Token} {e : StructureError} (hscan : scan dialect source = .ok ts)
      (hts : Formula.ofTokens ts = .error e) : SourceOutcome dialect source (.error (.structural e))
  | formula {ts : List Token} {f : Formula} (hscan : scan dialect source = .ok ts)
      (hts : Formula.ofTokens ts = .ok f) : SourceOutcome dialect source (.ok f)

theorem Formula.ofSource_of_scan {dialect : Dialect} {source : String} {ts : List Token}
    (h : scan dialect source = .ok ts) :
    ofSource dialect source = (ofTokens ts).mapError .structural := by
  rw [ofSource, h]

theorem Formula.ofSource_of_scan_error {dialect : Dialect} {source : String} {e : ScanError}
    (h : scan dialect source = .error e) : ofSource dialect source = .error (.scan e) := by
  rw [ofSource, h]

theorem sourceOutcome (dialect : Dialect) (source : String) :
    SourceOutcome dialect source (Formula.ofSource dialect source) := by
  cases hscan : scan dialect source with
  | error e =>
    rw [Formula.ofSource_of_scan_error hscan]
    exact .scan hscan
  | ok ts =>
    rw [Formula.ofSource_of_scan hscan]
    cases hts : Formula.ofTokens ts with
    | error e => exact .structural hscan hts
    | ok f => exact .formula hscan hts

theorem evaluate_of_ok {source : String} {f : Formula}
    (h : Formula.ofSource .symbolic source = .ok f) :
    evaluate source = f.evaluate.mapError .evaluation := by
  rw [evaluate, h]

theorem evaluate_of_error {source : String} {e : Error}
    (h : Formula.ofSource .symbolic source = .error e) : evaluate source = .error e := by
  rw [evaluate, h]

/-- A source has the value of its formula, and only that. -/
theorem evaluate_eq_ok_iff {source : String} {x : Float} :
    evaluate source = .ok x ↔
      ∃ f, Formula.ofSource .symbolic source = .ok f ∧ f.evaluate = .ok x := by
  cases hsource : Formula.ofSource .symbolic source with
  | error e =>
    rw [evaluate_of_error hsource]
    exact iff_of_false nofun nofun
  | ok f =>
    rw [evaluate_of_ok hsource]
    cases hvalue : f.evaluate with
    | error e =>
      show (Except.error (Error.evaluation e) : Except Error Float) = .ok x ↔ _
      simp [hvalue]
    | ok y =>
      show (Except.ok y : Except Error Float) = .ok x ↔ _
      simp [hvalue]

/-- A source has no value for want of a formula, or of a value of it. -/
theorem evaluate_eq_error_iff {source : String} {e : Error} :
    evaluate source = .error e ↔ Formula.ofSource .symbolic source = .error e ∨
      ∃ f e', Formula.ofSource .symbolic source = .ok f ∧ f.evaluate = .error e' ∧
        .evaluation e' = e := by
  cases hsource : Formula.ofSource .symbolic source with
  | error e' =>
    rw [evaluate_of_error hsource]
    simp
  | ok f =>
    rw [evaluate_of_ok hsource]
    cases hvalue : f.evaluate with
    | error e' =>
      show (Except.error (Error.evaluation e') : Except Error Float) = .error e ↔ _
      simp [hvalue]
    | ok y =>
      show (Except.ok y : Except Error Float) = .error e ↔ _
      simp [hvalue]

end Calculator
