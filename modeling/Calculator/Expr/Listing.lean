import Calculator.Expr.Basic

/-!
# Listings of expressions

Three ways to go through an expression from left to right and collect what is
there.

* `Expr.text` collects the texts of the tokens with each join between its
  operands.  It keeps the order of the tokens and loses the shape.
* `Expr.describe` collects everything, marks and shape included.
* `Expr.postorder` collects the subexpressions, each after its own operands.

Each is written as a walk that adds to what has been collected before, so that
a deep expression takes one pass over it.  The lemmas say what each collects
without speaking of the walk: a leaf's own part, and for a join the parts of
its operands put together.
-/

namespace Calculator.Expr

/-- Adds the texts of an expression's tokens, in order, to a text. -/
def textAfter (before : String) : Expr → String
  | leaf token _ => before ++ token.text
  | join token left right _ => right.textAfter (left.textAfter before ++ token.text)

/-- The texts of an expression's tokens, each join's between those of its
operands. -/
def text (e : Expr) : String := e.textAfter ""

theorem textAfter_eq (before : String) (e : Expr) : e.textAfter before = before ++ e.text := by
  induction e generalizing before with
  | leaf token closed => simp [text, textAfter]
  | join token left right closed ihl ihr =>
    rw [text, textAfter, textAfter, ihr, ihr (left.textAfter "" ++ token.text), ihl, ihl ""]
    simp [String.append_assoc]

theorem text_leaf (token : Token) (closed : Bool) : (leaf token closed).text = token.text := by
  simp [text, textAfter]

theorem text_join (token : Token) (left right : Expr) (closed : Bool) :
    (join token left right closed).text = left.text ++ token.text ++ right.text := by
  rw [text, textAfter, textAfter_eq, ← text]

/-- What a description writes for a mark. -/
def describeMark (closed : Bool) : String := if closed then "true" else "false"

/-- Adds a description of an expression to a text. -/
def describeAfter (before : String) : Expr → String
  | leaf token closed =>
    before ++ "Node \x7b token: " ++ token.describe ++ ", operands: None, computable: "
      ++ describeMark closed ++ " \x7d"
  | join token left right closed =>
    right.describeAfter
        (left.describeAfter
            (before ++ "Node \x7b token: " ++ token.describe
              ++ ", operands: Some(Operands \x7b left: ")
          ++ ", right: ")
      ++ " \x7d), computable: " ++ describeMark closed ++ " \x7d"

/-- A description of an expression that shows all of it. -/
def describe (e : Expr) : String := e.describeAfter ""

theorem describeAfter_eq (before : String) (e : Expr) :
    e.describeAfter before = before ++ e.describe := by
  induction e generalizing before with
  | leaf token closed => simp [describe, describeAfter, String.append_assoc]
  | join token left right closed ihl ihr =>
    rw [describe, describeAfter, describeAfter, ihr, ihl, ihr (_ ++ ", right: "), ihl (_ ++ _)]
    simp [String.append_assoc]

theorem describe_leaf (token : Token) (closed : Bool) :
    (leaf token closed).describe =
      "Node \x7b token: " ++ token.describe ++ ", operands: None, computable: "
        ++ describeMark closed ++ " \x7d" := by
  simp [describe, describeAfter]

theorem describe_join (token : Token) (left right : Expr) (closed : Bool) :
    (join token left right closed).describe =
      "Node \x7b token: " ++ token.describe ++ ", operands: Some(Operands \x7b left: "
        ++ left.describe ++ ", right: " ++ right.describe ++ " \x7d), computable: "
        ++ describeMark closed ++ " \x7d" := by
  rw [describe, describeAfter, describeAfter_eq, describeAfter_eq]
  simp [String.append_assoc]

/-- Adds the subexpressions of an expression to an array. -/
def postorderAfter (before : Array Expr) : Expr → Array Expr
  | e@(leaf ..) => before.push e
  | e@(join _ left right _) => (right.postorderAfter (left.postorderAfter before)).push e

/-- The subexpressions of an expression, each after its left and then its
right operand, the expression itself last. -/
def postorder (e : Expr) : Array Expr := e.postorderAfter #[]

theorem postorderAfter_eq (before : Array Expr) (e : Expr) :
    e.postorderAfter before = before ++ e.postorder := by
  induction e generalizing before with
  | leaf token closed => simp [postorder, postorderAfter]
  | join token left right closed ihl ihr =>
    rw [postorder, postorderAfter, postorderAfter, ihr, ihl, ihr (left.postorderAfter _), ihl #[]]
    simp [Array.append_assoc]

theorem postorder_leaf (token : Token) (closed : Bool) :
    (leaf token closed).postorder = #[leaf token closed] := by
  simp [postorder, postorderAfter]

theorem postorder_join (token : Token) (left right : Expr) (closed : Bool) :
    (join token left right closed).postorder =
      (left.postorder ++ right.postorder).push (join token left right closed) := by
  rw [postorder, postorderAfter, postorderAfter_eq, ← postorder]

end Calculator.Expr
