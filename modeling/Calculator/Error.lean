import Calculator.Formula.Assembly
import Calculator.Token.Scan

/-!
# Errors

Whatever can go wrong between a source and its value: it cannot be cut into
tokens, its tokens do not make a formula, or the formula has no value.  Each
error has a code that does not change when its wording does, and codes fall
into families by their first digits.
-/

namespace Calculator

/-- Why a source has no value. -/
inductive Error where
  | scan (error : ScanError)
  | structural (error : StructureError)
  | evaluation (error : EvaluationError)
deriving DecidableEq

/-- The number that tells kinds of errors apart. -/
structure ErrorCode where
  number : Nat
deriving DecidableEq

namespace ErrorCode

/-- A code is written with four digits. -/
def text (code : ErrorCode) : String :=
  let digits := Nat.toDigits 10 code.number
  String.ofList ('E' :: (List.replicate (4 - digits.length) '0' ++ digits))

/-- Codes below 1000 are about the characters of a source. -/
def isLexical (code : ErrorCode) : Bool := code.number / 1000 == 0

/-- Codes from 1000 to 1099 are about operators and operands. -/
def isSyntax (code : ErrorCode) : Bool := code.number / 100 == 10

/-- Codes from 1100 to 1199 are about brackets. -/
def isBracketMismatch (code : ErrorCode) : Bool := code.number / 100 == 11

end ErrorCode

namespace ScanFault

/-- The code of each fault of a source's characters. -/
def code : ScanFault → ErrorCode
  | strangeChar _ => ⟨1⟩
  | malformedNumber => ⟨2⟩
  | repeatedPoint => ⟨3⟩
  | malformedName => ⟨4⟩
  | unknownTerm => ⟨5⟩

end ScanFault

namespace StructureFault

/-- The code of each fault of a source's structure. -/
def code : StructureFault → ErrorCode
  | missingOperands .. => ⟨1001⟩
  | leftoverOperands _ => ⟨1002⟩
  | emptyGroup => ⟨1003⟩
  | unmatchedClosing => ⟨1101⟩
  | unclosedOpening => ⟨1102⟩

end StructureFault

namespace EvaluationFault

/-- The code of each fault of an expression's value. -/
def code : EvaluationFault → ErrorCode
  | unresolvedName _ => ⟨6001⟩
  | malformedNumber _ => ⟨6002⟩
  | notAnOperator _ => ⟨6003⟩

end EvaluationFault

namespace Error

/-- The code of an error. -/
def code : Error → ErrorCode
  | scan e => e.fault.code
  | structural e => e.fault.code
  | evaluation e => e.fault.code

/-- Where an error is. -/
def span : Error → Span
  | scan e => e.span
  | structural e => e.span
  | evaluation e => e.span

/-- What an error says, without its code. -/
def detail : Error → String
  | scan e => e.message
  | structural e => e.message
  | evaluation e => e.message

/-- What an error says. -/
def message (e : Error) : String := "error[" ++ e.code.text ++ "]: " ++ e.detail

end Error

end Calculator
