import Calculator.Expr.Evaluation
import Calculator.Expr.Listing
import Calculator.Expr.Substitution
import Std.Data.ExtTreeSet

/-!
# Formulas

A formula is an expression together with the names it was written with.  The
names are a record: substitution changes the expression and leaves them.
-/

namespace Calculator

/-- A set of names, in the order of their characters' code points. -/
abbrev Names := Std.ExtTreeSet String

/-- An expression and the names it was written with. -/
structure Formula where
  root : Expr
  names : Names
deriving DecidableEq

namespace Formula

/-- Whether no name is left without a number. -/
def isClosed (f : Formula) : Bool := f.root.isClosed

/-- Gives names their numbers.  Names that the formula does not hold are
passed over. -/
def substitute (bindings : Bindings) (f : Formula) : Formula :=
  { f with root := f.root.substitute bindings }

/-- The value of a formula. -/
def evaluate (f : Formula) : Except EvaluationError Float := f.root.evaluate

end Formula

end Calculator
