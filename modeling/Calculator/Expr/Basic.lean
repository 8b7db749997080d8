import Calculator.Token.Basic

/-!
# Expressions

An expression is a tree of tokens: a leaf is one token, and a join is an
operator's token over two expressions.  Brackets are not in the tree; its
shape is what they and the precedence of the operators said.

Every node carries a mark that says whether it is closed, that is, whether no
name is left below it.  `ofToken` and `ofOperands` set the mark, and
substitution keeps it, so an expression made and changed by this library is
closed exactly when it says so.  The kinds of the tokens are not restricted:
an operator may be a leaf, and a number may join two expressions.
-/

namespace Calculator

/-- A tree of tokens. -/
inductive Expr where
  | leaf (token : Token) (closed : Bool)
  | join (token : Token) (left right : Expr) (closed : Bool)
deriving DecidableEq

instance : Inhabited Expr := ⟨.leaf default true⟩

namespace Expr

/-- The token of the topmost node. -/
def token : Expr → Token
  | leaf token _ => token
  | join token _ _ _ => token

/-- The mark of the topmost node: whether the expression has no name left. -/
def isClosed : Expr → Bool
  | leaf _ closed => closed
  | join _ _ _ closed => closed

/-- The left and the right operand of a join. -/
def operands? : Expr → Option (Expr × Expr)
  | leaf .. => none
  | join _ left right _ => some (left, right)

/-- Whether an expression is one token. -/
def isLeaf : Expr → Bool
  | leaf .. => true
  | join .. => false

/-- The expression that is one token.  It is closed unless the token is a
name. -/
def ofToken (token : Token) : Expr := leaf token (token.kind ≠ .name)

/-- The expression that joins two.  It is closed when both are. -/
def ofOperands (token : Token) (left right : Expr) : Expr :=
  join token left right (left.isClosed && right.isClosed)

/-- The number of nodes on the longest way down. -/
def depth : Expr → Nat
  | leaf .. => 1
  | join _ left right _ => 1 + max left.depth right.depth

end Expr

end Calculator
