import Calculator.Expr.Basic
import Calculator.Numeral.Read

/-!
# Evaluation

The value of an expression.  A leaf's text is read as a number, and a join
applies its operation to the values of its operands, the left one first.  The
marks of the nodes are not asked: evaluation fails at the first node that has
no value, a join before its operands and a left operand before a right one.
-/

namespace Calculator

/-- Why an expression has no value. -/
inductive EvaluationFault where
  /-- A leaf is a name that has not been given a number. -/
  | unresolvedName (name : String)
  /-- A leaf's text is not that of a number. -/
  | malformedNumber (text : String)
  /-- The token of a join is not an operator. -/
  | notAnOperator (kind : Kind)
deriving DecidableEq

/-- A fault and the span of the token that has it. -/
structure EvaluationError where
  fault : EvaluationFault
  span : Span
deriving DecidableEq

/-- The message of an evaluation error. -/
def EvaluationError.message (e : EvaluationError) : String :=
  match e.fault with
  | .unresolvedName name =>
    "cannot evaluate, variable `" ++ name ++ "` at " ++ e.span.text ++ " is not substituted yet"
  | .malformedNumber text => "malformed number " ++ Text.quoted text ++ " at " ++ e.span.text
  | .notAnOperator kind => kind.title ++ " at " ++ e.span.text ++ " cannot join two operands"

/-- The value of a leaf. -/
def Token.value (t : Token) : Except EvaluationError Float :=
  if t.kind = .name then .error ⟨.unresolvedName t.text, t.span⟩
  else match Numeral.read? t.text with
    | some value => .ok value
    | none => .error ⟨.malformedNumber t.text, t.span⟩

/-- The value of an expression. -/
def Expr.evaluate : Expr → Except EvaluationError Float
  | leaf token _ => token.value
  | join token left right _ =>
    match token.kind.operation? with
    | none => .error ⟨.notAnOperator token.kind, token.span⟩
    | some operation => do
      let x ← left.evaluate
      let y ← right.evaluate
      return operation.apply x y

end Calculator
