import Calculator.Numeral.RoundTrip
import Calculator.Proofs.Expr.Leaves

/-!
# Values in an environment

An environment gives numbers to names for one evaluation and changes no
expression.  `Expr.evaluateIn` is the value of an expression in an environment:
it differs from `Expr.evaluate` in the names that have a number, and nowhere
else.

Substitution goes another way.  It writes the number of a name out as text, the
leaf becomes a number, and evaluation reads the text again.
`Expr.evaluateIn_substitute` says that this comes to the same, one substitution
at a time: what a substitution gives goes before what the environment gives,
since the leaf is a name no longer.  `Formula.evaluate_substituteAll` is what
follows for a formula that gets its numbers in stages: the first stage that
gives a name a number decides.
-/

namespace Calculator

/-- The numbers that names have, `none` for the names without one. -/
abbrev Environment := String → Option Float

/-- The value of a leaf in an environment. -/
def Token.valueIn (env : Environment) (t : Token) : Except EvaluationError Float :=
  if t.kind = .name then
    match env t.text with
    | some value => .ok value
    | none => .error ⟨.unresolvedName t.text, t.span⟩
  else t.value

/-- The value of an expression in an environment. -/
def Expr.evaluateIn (env : Environment) : Expr → Except EvaluationError Float
  | leaf token _ => token.valueIn env
  | join token left right _ =>
    match token.kind.operation? with
    | none => .error ⟨.notAnOperator token.kind, token.span⟩
    | some operation => do
      let x ← left.evaluateIn env
      let y ← right.evaluateIn env
      return operation.apply x y

/-- Gives names their numbers in several stages, one after the other. -/
def Formula.substituteAll (stages : List Bindings) (f : Formula) : Formula :=
  stages.foldl (fun f bindings => f.substitute bindings) f

/-- The number that the first of several stages gives to a name. -/
def firstNumber? (stages : List Bindings) : Environment :=
  fun name => stages.findSome? fun bindings => bindings[name]?

/-! ## Values -/

namespace Expr

theorem evaluateIn_nothing (e : Expr) : e.evaluateIn (fun _ => none) = e.evaluate := by
  induction e with
  | leaf token closed =>
    by_cases hk : token.kind = .name
    · simp [evaluateIn, evaluate, Token.valueIn, Token.value, hk]
    · simp [evaluateIn, evaluate, Token.valueIn, hk]
  | join token left right closed ihl ihr =>
    cases hop : token.kind.operation? with
    | none => simp only [evaluateIn, evaluate, hop]
    | some operation => simp only [evaluateIn, evaluate, hop, ihl, ihr]

/-- A leaf that has become a number has that number for its value. -/
theorem value_write (value : Float) (span : Span) :
    (Token.mk .number (Numeral.write value) span).value = .ok value := by
  rw [Token.value, if_neg nofun, Numeral.read?_write]

/-- What a substitution gives to a name goes before what the environment
gives. -/
theorem evaluateIn_substitute (bindings : Bindings) (env : Environment) (e : Expr) :
    (e.substitute bindings).evaluateIn env =
      e.evaluateIn fun name => bindings[name]? <|> env name := by
  induction e with
  | leaf t closed =>
    rcases t.bound_or_unbound bindings with ⟨value, hk, hb⟩ | h
    · rw [substitute_leaf_bound hk hb]
      simp only [evaluateIn, Token.valueIn, hk, hb]
      exact value_write value t.span
    · rw [substitute_leaf_unbound h]
      by_cases hk : t.kind = .name
      · simp [evaluateIn, Token.valueIn, h hk]
      · simp [evaluateIn, Token.valueIn, hk]
  | join t left right closed ihl ihr =>
    rw [substitute_join, ofOperands, evaluateIn, evaluateIn, ihl, ihr]

end Expr

/-! ## Stages -/

theorem Formula.substituteAll_cons (bindings : Bindings) (stages : List Bindings) (f : Formula) :
    f.substituteAll (bindings :: stages) = (f.substitute bindings).substituteAll stages := rfl

/-- What every substitution keeps, all stages keep. -/
theorem Formula.substituteAll_induction {P : Formula → Prop} {f : Formula}
    (hstep : ∀ bindings g, P g → P (g.substitute bindings)) (h : P f) (stages : List Bindings) :
    P (f.substituteAll stages) := by
  induction stages generalizing f with
  | nil => exact h
  | cons bindings stages ih => exact ih (hstep bindings f h)

/-- What the stages give to a name goes before what the environment gives, and
of the stages the first. -/
theorem Formula.evaluateIn_substituteAll (stages : List Bindings) (env : Environment)
    (f : Formula) :
    (f.substituteAll stages).root.evaluateIn env =
      f.root.evaluateIn fun name => firstNumber? stages name <|> env name := by
  induction stages generalizing f with
  | nil => rfl
  | cons bindings stages ih =>
    rw [substituteAll_cons, ih]
    show (f.root.substitute bindings).evaluateIn _ = _
    rw [Expr.evaluateIn_substitute]
    congr 1
    funext name
    cases hb : bindings[name]? <;> simp [firstNumber?, hb]

/-- A formula that has been given numbers in stages has the value that its
expression had at the start, in the environment in which every name has the
number of the first stage that gives it one; and if that has no value, it fails
with the same fault at the same place. -/
theorem Formula.evaluate_substituteAll (stages : List Bindings) (f : Formula) :
    (f.substituteAll stages).evaluate = f.root.evaluateIn (firstNumber? stages) := by
  have henv : (fun name => firstNumber? stages name <|> none) = firstNumber? stages := by
    funext name
    cases firstNumber? stages name <;> rfl
  have hstages := evaluateIn_substituteAll stages (fun _ => none) f
  rw [Expr.evaluateIn_nothing, henv] at hstages
  exact hstages

end Calculator
