import Calculator.Formula.Basic
import Calculator.Formula.Stack

/-!
# Assembling formulas

Making a formula from tokens.

Operands are shifted onto a stack of expressions, and operators and opening
brackets wait on a second one.  An operator that comes in first lets every
waiting operator that binds at least as tightly join its operands, back to the
last opening bracket; so operators of one precedence group to the left.  A
closing bracket lets all operators back to its opening bracket join theirs,
and the end of the tokens lets all of them.

Nothing here expects an operand or an operator next.  What is asked instead is
that the counts come out right: an operator must find two operands when it
joins them, a pair of brackets must leave one expression more on the stack
than there was before it, and in the end one expression must be left.

Two of the faults end the assembly at once: an operator that does not find two
operands, and a closing bracket that closes nothing.  A pair of brackets that
leaves a wrong count is only noted, the first such pair for good, and becomes
the outcome when the tokens have come to their end and no opening bracket is
left waiting.
-/

namespace Calculator

/-- Why tokens do not make a formula. -/
inductive StructureFault where
  /-- An operator found fewer than two operands. -/
  | missingOperands (operator : Kind) (found : Nat)
  /-- Other than one expression is left, of the whole or of a pair of
  brackets. -/
  | leftoverOperands (count : Nat)
  /-- A pair of brackets leaves nothing. -/
  | emptyGroup
  /-- A closing bracket closes nothing. -/
  | unmatchedClosing
  /-- An opening bracket is never closed. -/
  | unclosedOpening
deriving DecidableEq

namespace StructureFault

/-- Whether a fault is about how brackets pair up. -/
def isBracketMismatch : StructureFault → Bool
  | unmatchedClosing | unclosedOpening => true
  | missingOperands .. | leftoverOperands _ | emptyGroup => false

/-- Whether a fault is about how operators and operands go together. -/
def isSyntax (fault : StructureFault) : Bool := !fault.isBracketMismatch

/-- What a message says of a fault. -/
def message : StructureFault → String
  | missingOperands operator found =>
    "invalid number of operands for " ++ operator.title ++ ": expected 2, found " ++ toString found
  | leftoverOperands count =>
    "illegal combination of operators and operands (" ++ toString count
      ++ " operands left, expected 1)"
  | emptyGroup => "empty bracket group"
  | unmatchedClosing => "unequal amount of opening and closing brackets: unmatched `)`"
  | unclosedOpening => "unequal amount of opening and closing brackets: unclosed `(`"

end StructureFault

/-- A fault and the place it is at. -/
structure StructureError where
  fault : StructureFault
  span : Span
deriving DecidableEq

/-- The message of a structure error. -/
def StructureError.message (e : StructureError) : String :=
  e.fault.message ++ " at " ++ e.span.text

/-- What waits for its operands or for its closing bracket. -/
inductive Waiting where
  | operator (operation : Operation) (token : Token)
  /-- An opening bracket, and the height of the operands when it came. -/
  | group (bracket : Token) (height : Nat)
deriving DecidableEq

/-- A formula under assembly. -/
structure Assembly where
  /-- The expressions that are complete so far. -/
  operands : Stack Expr := .empty
  /-- The operators and opening brackets that wait, the last one first. -/
  waiting : List Waiting := []
  /-- The names met so far. -/
  names : Names := ∅
  /-- The first pair of brackets that left a wrong count. -/
  badGroup : Option StructureError := none
  /-- The least span that covers all tokens so far. -/
  extent : Option Span := none

namespace Assembly

/-- Joins the two topmost expressions under an operator. -/
def join (token : Token) (operands : Stack Expr) : Except StructureError (Stack Expr) :=
  match operands.combine? (Expr.ofOperands token) with
  | some joined => .ok joined
  | none => .error ⟨.missingOperands token.kind operands.height, token.span⟩

/-- Lets the last operators join their operands, as long as they bind at least
as tightly as `precedence` and no opening bracket stands in between. -/
def reduce (precedence : Nat) :
    List Waiting → Stack Expr → Except StructureError (List Waiting × Stack Expr)
  | .operator operation token :: rest, operands =>
    if precedence ≤ operation.precedence then
      match join token operands with
      | .ok joined => reduce precedence rest joined
      | .error e => .error e
    else .ok (.operator operation token :: rest, operands)
  | waiting, operands => .ok (waiting, operands)

/-- What is wrong with a pair of brackets that came at one height of the
operands and leaves another. -/
def groupFault? (before after : Nat) : Option StructureFault :=
  if after ≤ before then some .emptyGroup
  else if after = before + 1 then none
  else some (.leftoverOperands (after - before))

/-- Takes an operator. -/
def takeOperator (a : Assembly) (operation : Operation) (token : Token) :
    Except StructureError Assembly :=
  match reduce operation.precedence a.waiting a.operands with
  | .ok (waiting, operands) =>
    .ok { a with waiting := .operator operation token :: waiting, operands }
  | .error e => .error e

/-- Takes a closing bracket. -/
def takeClosing (a : Assembly) (token : Token) : Except StructureError Assembly :=
  match reduce 0 a.waiting a.operands with
  | .ok (.group bracket height :: waiting, operands) =>
    let span := bracket.span.hull token.span
    let bad := (groupFault? height operands.height).map fun fault => ⟨fault, span⟩
    .ok { a with waiting, operands, badGroup := a.badGroup <|> bad }
  | .ok _ => .error ⟨.unmatchedClosing, token.span⟩
  | .error e => .error e

/-- Covers a token with the extent. -/
def cover (a : Assembly) (token : Token) : Assembly :=
  let extent := match a.extent with
    | some extent => extent.hull token.span
    | none => token.span
  { a with extent := some extent }

/-- Takes the next token. -/
def take (a : Assembly) (token : Token) : Except StructureError Assembly :=
  let a := a.cover token
  match token.kind with
  | .number => .ok { a with operands := a.operands.push (.ofToken token) }
  | .name =>
    .ok { a with operands := a.operands.push (.ofToken token), names := a.names.insert token.text }
  | .operator operation => a.takeOperator operation token
  | .opening => .ok { a with waiting := .group token a.operands.height :: a.waiting }
  | .closing => a.takeClosing token

/-- Takes tokens up to the first fault. -/
def takeAll (a : Assembly) (tokens : List Token) : Except StructureError Assembly :=
  tokens.foldlM take a

/-- The formula that the tokens taken make. -/
def finish (a : Assembly) : Except StructureError Formula :=
  match reduce 0 a.waiting a.operands with
  | .error e => .error e
  | .ok (.group bracket _ :: _, _) => .error ⟨.unclosedOpening, bracket.span⟩
  | .ok (_, operands) =>
    match a.badGroup, operands.items with
    | some e, _ => .error e
    | none, [root] => .ok ⟨root, a.names⟩
    | none, _ => .error ⟨.leftoverOperands operands.height, a.extent.getD .nowhere⟩

end Assembly

/-- The formula that tokens make. -/
def Formula.ofTokens (tokens : List Token) : Except StructureError Formula := do
  let a ← Assembly.takeAll {} tokens
  a.finish

end Calculator
