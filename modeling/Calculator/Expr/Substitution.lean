import Calculator.Expr.Basic
import Calculator.Numeral.Write
import Std.Data.ExtTreeMap

/-!
# Substitution

Giving names their numbers.  A leaf that is a name with a number becomes that
number, written out, and keeps its span; a leaf that is not a name, and a name
without a number, stay as they are.  What has become a number is a name no
longer, so later numbers for the same name do not change it.

The substitution goes through the expression twice.  `resolve` changes the
leaves, and `refresh` then sets the marks of the joins anew, operands first.
-/

namespace Calculator

/-- The numbers given to names. -/
abbrev Bindings := Std.ExtTreeMap String Float

namespace Expr

/-- Turns every leaf whose name has a text into a number with that text. -/
def resolve (texts : Std.ExtTreeMap String String) : Expr → Expr
  | leaf token closed =>
    if token.kind = .name then
      match texts[token.text]? with
      | some text => leaf ⟨.number, text, token.span⟩ true
      | none => leaf token closed
    else leaf token closed
  | join token left right closed => join token (left.resolve texts) (right.resolve texts) closed

/-- Sets the mark of every join from those of its operands.  The marks of
leaves stay. -/
def refresh : Expr → Expr
  | leaf token closed => leaf token closed
  | join token left right _ => ofOperands token left.refresh right.refresh

/-- Gives names their numbers. -/
def substitute (bindings : Bindings) (e : Expr) : Expr :=
  (e.resolve (bindings.map fun _ value => Numeral.write value)).refresh

end Expr

end Calculator
