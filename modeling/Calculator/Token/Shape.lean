import Calculator.Token.Basic

/-!
# The shapes of tokens

What a source may hold, character by character, and what the texts of numbers
and names look like.

* `Dialect.classOf?` puts every character that a source may hold into a class.
* `isNumberShape` and `isNameShape` say which texts are numbers and names.
* `Dialect.kindOf?` gives the kind of a text that is one token as a whole.

The underscore is read with the letters, although no name holds it: a run of
letters and underscores is refused as one malformed name and not as a name
and a strange character.
-/

namespace Calculator

/-- Which words an expression may use. -/
inductive Dialect where
  /-- Numbers and names. -/
  | symbolic
  /-- Numbers alone. -/
  | numeric
deriving DecidableEq, Inhabited

/-- The characters that numbers and names are made of. -/
inductive Part where
  | digit
  | point
  /-- A letter or an underscore. -/
  | letter
deriving DecidableEq

/-- What a character does in a source. -/
inductive CharClass where
  /-- It is part of a number or a name. -/
  | part (part : Part)
  /-- It stands between tokens. -/
  | blank
  /-- It is a token by itself, an operator or a bracket. -/
  | mark (kind : Kind)
deriving DecidableEq

/-- The class of a character in a source that may hold names. -/
def CharClass.of? (c : Char) : Option CharClass :=
  if c.isDigit then some (.part .digit)
  else if c.isAlpha || c = '_' then some (.part .letter)
  else match c with
    | '.' => some (.part .point)
    | ' ' => some .blank
    | '+' => some (.mark (.operator .add))
    | '-' => some (.mark (.operator .sub))
    | '*' => some (.mark (.operator .mul))
    | '/' => some (.mark (.operator .div))
    | '(' => some (.mark .opening)
    | ')' => some (.mark .closing)
    | _ => none

/-- Whether a text has the shape of a number, given whether a digit must come
next.  A digit must come after every point. -/
def isNumberShapeFrom (digitDue : Bool) : List Char → Bool
  | [] => !digitDue
  | c :: rest =>
    if c = '.' then !digitDue && isNumberShapeFrom true rest
    else c.isDigit && isNumberShapeFrom false rest

/-- The shape of a number: digits, possibly none, and then any count of
points, each followed by at least one digit. -/
def isNumberShape (text : List Char) : Bool := isNumberShapeFrom false text

/-- The shape of a name: letters, at least one. -/
def isNameShape (text : List Char) : Bool :=
  !text.isEmpty && text.all Char.isAlpha

namespace Dialect

/-- Whether names may be used. -/
def allowsNames : Dialect → Bool
  | symbolic => true
  | numeric => false

/-- The class of a character, if a source may hold it. -/
def classOf? (dialect : Dialect) (c : Char) : Option CharClass :=
  match CharClass.of? c with
  | some (.part .letter) => if dialect.allowsNames then some (.part .letter) else none
  | found => found

/-- The kind of a text that is one token as a whole.  The text is never cut:
two numbers with a sign between them are no token. -/
def kindOf? (dialect : Dialect) (text : List Char) : Option Kind :=
  match text.map CharClass.of? with
  | [some (.mark kind)] => some kind
  | _ =>
    if !text.isEmpty && isNumberShape text then some .number
    else if dialect.allowsNames && isNameShape text then some .name
    else none

end Dialect

end Calculator
