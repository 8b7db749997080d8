/-!
# The four operations

An operation is what an operator of the source stands for.  Multiplication
and division bind tighter than addition and subtraction, and all four are
those of double-precision arithmetic: dividing by zero gives an infinity or
no number, never an error.
-/

namespace Calculator

/-- The operations on two numbers. -/
inductive Operation where
  | add
  | sub
  | mul
  | div
deriving DecidableEq, Inhabited

namespace Operation

/-- How an operation is written. -/
def symbol : Operation → String
  | add => "+"
  | sub => "-"
  | mul => "*"
  | div => "/"

/-- How tightly an operation binds.  Zero is below every operation. -/
def precedence : Operation → Nat
  | add | sub => 1
  | mul | div => 2

/-- The result of an operation, rounded once. -/
def apply : Operation → Float → Float → Float
  | add, x, y => x + y
  | sub, x, y => x - y
  | mul, x, y => x * y
  | div, x, y => x / y

end Operation

end Calculator
