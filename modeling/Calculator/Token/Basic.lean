import Calculator.Operation
import Calculator.Span
import Calculator.Text.Quoted

/-!
# Tokens

A token is a piece of an expression's source: its kind, its text and its
span.  A number keeps its text, which is read only when the expression is
evaluated, and a name is known by its text.

Nothing ties the text of a token to its kind.  The scanner makes tokens whose
text fits; a token made otherwise may say anything, and everything that takes
tokens is defined for it.
-/

namespace Calculator

/-- What a token is. -/
inductive Kind where
  /-- A number, written out. -/
  | number
  /-- A name, which stands for a number that is given later. -/
  | name
  | operator (operation : Operation)
  /-- An opening bracket. -/
  | opening
  /-- A closing bracket. -/
  | closing
deriving DecidableEq, Inhabited

namespace Kind

/-- The text of the kinds that are always written alike. -/
def symbol? : Kind → Option String
  | number | name => none
  | operator operation => some operation.symbol
  | opening => some "("
  | closing => some ")"

/-- How tightly a kind binds while it waits for its operands.  An opening
bracket binds less than every operator, which keeps the operators before it
waiting; numbers, names and closing brackets never wait. -/
def precedence? : Kind → Option Nat
  | operator operation => some operation.precedence
  | opening => some 0
  | number | name | closing => none

/-- The operation of an operator. -/
def operation? : Kind → Option Operation
  | operator operation => some operation
  | _ => none

/-- Operands are the kinds that have a value of their own. -/
def isOperand : Kind → Bool
  | number | name => true
  | _ => false

/-- What messages call a kind. -/
def title : Kind → String
  | number => "number"
  | name => "variable"
  | operator operation => "`" ++ operation.symbol ++ "`"
  | opening => "`(`"
  | closing => "`)`"

/-- What a description of a token calls its kind. -/
def label : Kind → String
  | number => "Number"
  | name => "Variable"
  | operator .add => "Plus"
  | operator .sub => "Minus"
  | operator .mul => "Times"
  | operator .div => "Divide"
  | opening => "LParen"
  | closing => "RParen"

end Kind

/-- A piece of the source of an expression. -/
structure Token where
  kind : Kind
  text : String
  span : Span
deriving DecidableEq, Inhabited

namespace Token

/-- A token that no source holds. -/
def detached (kind : Kind) (text : String) : Token := ⟨kind, text, .nowhere⟩

/-- The operator or bracket of a kind; numbers and names have no fixed
text. -/
def ofSymbol? (kind : Kind) (span : Span) : Option Token :=
  kind.symbol?.map fun text => ⟨kind, text, span⟩

/-- A description of a token that shows all of it. -/
def describe (t : Token) : String :=
  t.kind.label ++ "(" ++ Text.quoted t.text ++ ") @ " ++ t.span.text

end Token

end Calculator
