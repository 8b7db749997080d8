import Calculator.Token.Shape

/-!
# Scanning

Cutting a source into tokens, or saying where and why it cannot be cut.

The scanner reads one character after the other.  Digits and points gather in
a run, and so do letters and underscores; a run ends where another character
does not continue it, and becomes a token there if its text has the shape of a
number or a name.  Operators and brackets are tokens by themselves, and blanks
only end the run before them.

The first fault met ends the scan.  A character that no source may hold is
met before the run in front of it ends, so it is the one reported when both
are at fault.  A second point in a run of digits is met where it stands, and
any other fault of a run where the run ends.
-/

namespace Calculator

/-- What a scan was reading when it failed. -/
inductive ScanContext where
  | betweenTokens
  | inNumber
  | inName
  /-- A text given as one whole token. -/
  | wholeTerm
deriving DecidableEq

/-- Why a source cannot be cut into tokens. -/
inductive ScanFault where
  /-- No source may hold this character. -/
  | strangeChar (c : Char)
  /-- A run of digits and points holds a second point. -/
  | repeatedPoint
  /-- A run of digits and points does not have the shape of a number. -/
  | malformedNumber
  /-- A run of letters and underscores does not have the shape of a name. -/
  | malformedName
  /-- A text given as one whole token is none. -/
  | unknownTerm
deriving DecidableEq

namespace ScanFault

/-- Where each fault is met. -/
def context : ScanFault → ScanContext
  | strangeChar _ => .betweenTokens
  | repeatedPoint | malformedNumber => .inNumber
  | malformedName => .inName
  | unknownTerm => .wholeTerm

/-- What a message says of a fault. -/
def message : ScanFault → String
  | strangeChar c => "unclassifiable character " ++ Text.quotedChar c
  | repeatedPoint => "repeated decimal point in number"
  | malformedNumber => "malformed number, expected digits with optional `.digits` parts"
  | malformedName => "malformed identifier, expected ASCII letters only"
  | unknownTerm => "term does not match any token shape"

end ScanFault

/-- A fault and the place it is at. -/
structure ScanError where
  fault : ScanFault
  span : Span
deriving DecidableEq

/-- The message of a scan error. -/
def ScanError.message (e : ScanError) : String :=
  e.fault.message ++ " at " ++ e.span.text

/-! ## Runs -/

/-- The runs that a scanner gathers. -/
inductive Run where
  /-- Digits. -/
  | digits
  /-- Digits and one point. -/
  | decimal
  /-- Letters and underscores. -/
  | word
deriving DecidableEq

namespace Run

/-- The run that a character begins. -/
def begin : Part → Run
  | .digit => digits
  | .point => decimal
  | .letter => word

/-- The run that a run becomes when a character continues it, `none` when the
character ends it instead. -/
def extend? : Run → Part → Except ScanFault (Option Run)
  | digits, .digit => .ok (some digits)
  | digits, .point => .ok (some decimal)
  | decimal, .digit => .ok (some decimal)
  | decimal, .point => .error .repeatedPoint
  | word, .letter => .ok (some word)
  | _, _ => .ok none

/-- The kind of the token that a text becomes at the end of its run. -/
def kind (run : Run) (text : String) : Except ScanFault Kind :=
  match run with
  | digits | decimal =>
    if isNumberShape text.toList then .ok .number else .error .malformedNumber
  | word =>
    if isNameShape text.toList then .ok .name else .error .malformedName

end Run

/-- A run that has not ended, with the offset it starts at and its text. -/
structure OpenRun where
  run : Run
  start : Nat
  text : String

/-- The token that a run becomes when it ends at `stop`. -/
def OpenRun.token (p : OpenRun) (stop : Nat) : Except ScanError Token :=
  let span := Span.ofOffsets p.start stop
  match p.run.kind p.text with
  | .ok kind => .ok ⟨kind, p.text, span⟩
  | .error fault => .error ⟨fault, span⟩

/-! ## The scanner -/

/-- A scanner between two characters. -/
structure Scanner where
  /-- The bytes read so far. -/
  offset : Nat := 0
  /-- The run that the next character may continue. -/
  pending : Option OpenRun := none
  /-- The tokens cut so far. -/
  tokens : Array Token := #[]

namespace Scanner

/-- The span of a character that comes next. -/
def spanOf (s : Scanner) (c : Char) : Span :=
  .ofOffsets s.offset (s.offset + c.utf8Size)

/-- Ends the pending run, if there is one. -/
def endRun (s : Scanner) : Except ScanError Scanner :=
  match s.pending with
  | none => .ok s
  | some p =>
    match p.token s.offset with
    | .ok token => .ok ⟨s.offset, none, s.tokens.push token⟩
    | .error e => .error e

/-- Begins a run with a character. -/
def begin (s : Scanner) (part : Part) (c : Char) : Scanner :=
  ⟨s.offset + c.utf8Size, some ⟨.begin part, s.offset, String.singleton c⟩, s.tokens⟩

/-- Reads a character that is part of a number or a name. -/
def readPart (s : Scanner) (part : Part) (c : Char) : Except ScanError Scanner :=
  match s.pending with
  | none => .ok (s.begin part c)
  | some p =>
    match p.run.extend? part with
    | .ok (some run) =>
      .ok ⟨s.offset + c.utf8Size, some ⟨run, p.start, p.text.push c⟩, s.tokens⟩
    | .ok none => s.endRun.map fun s => s.begin part c
    | .error fault => .error ⟨fault, s.spanOf c⟩

/-- Reads a character that is a token by itself. -/
def readMark (s : Scanner) (kind : Kind) (c : Char) : Except ScanError Scanner :=
  s.endRun.map fun s =>
    ⟨s.offset + c.utf8Size, none, s.tokens.push ⟨kind, String.singleton c, s.spanOf c⟩⟩

/-- Reads a blank. -/
def readBlank (s : Scanner) (c : Char) : Except ScanError Scanner :=
  s.endRun.map fun s => ⟨s.offset + c.utf8Size, none, s.tokens⟩

/-- Reads one character. -/
def read (dialect : Dialect) (s : Scanner) (c : Char) : Except ScanError Scanner :=
  match dialect.classOf? c with
  | none => .error ⟨.strangeChar c, s.spanOf c⟩
  | some (.part part) => s.readPart part c
  | some (.mark kind) => s.readMark kind c
  | some .blank => s.readBlank c

/-- Reads characters up to the first fault. -/
def readAll (dialect : Dialect) (s : Scanner) (source : List Char) : Except ScanError Scanner :=
  source.foldlM (read dialect) s

end Scanner

/-- The tokens of a source, in source order. -/
def scan (dialect : Dialect) (source : String) : Except ScanError (List Token) := do
  let s ← Scanner.readAll dialect {} source.toList
  let s ← s.endRun
  return s.tokens.toList

/-- The kind of a text that is one token as a whole. -/
def kindOfTerm (dialect : Dialect) (term : String) : Except ScanError Kind :=
  match dialect.kindOf? term.toList with
  | some kind => .ok kind
  | none => .error ⟨.unknownTerm, .ofOffsets 0 term.utf8ByteSize⟩

end Calculator
