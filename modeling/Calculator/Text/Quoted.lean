import Calculator.Text.Extending
import Calculator.Text.Unprintable

/-!
# Quoted text

Messages quote the text they speak of, between single quotes for one
character and double quotes for a text, so that every character can be seen:

* NUL, tab, newline and carriage return, the backslash and the quote in use
  stand as a backslash and one character;
* a mark that extends the character before it, or a character without a
  printed form, stands as its code point in hexadecimal digits;
* every other character stands as itself.

The other quote is not escaped, so the two forms differ on it.
-/

namespace Calculator.Text

/-- The quotes that a text can stand between. -/
inductive Quote where
  | single
  | double
deriving DecidableEq

/-- The character that a quote is. -/
def Quote.mark : Quote → Char
  | single => '\x27'
  | double => '\x22'

/-- Whether one of the ranges holds the code point. -/
def inRanges (ranges : Array (Nat × Nat)) (code : Nat) : Bool :=
  ranges.any fun (first, last) => first ≤ code && code ≤ last

/-- Whether a character stands as itself in a quoted text that needs no
backslash for it. -/
def isShown (c : Char) : Bool :=
  !inRanges extendingRanges c.toNat && !inRanges unprintableRanges c.toNat

/-- The code point of a character in hexadecimal digits, as quoted text writes
it. -/
def codePoint (c : Char) : List Char :=
  '\\' :: 'u' :: '\x7b' :: Nat.toDigits 16 c.toNat ++ ['\x7d']

/-- What stands for one character between the given quotes. -/
def escape (quote : Quote) (c : Char) : List Char :=
  if c = '\x00' then ['\\', '0']
  else if c = '\t' then ['\\', 't']
  else if c = '\n' then ['\\', 'n']
  else if c = '\r' then ['\\', 'r']
  else if c = '\\' || c = quote.mark then ['\\', c]
  else if isShown c then [c]
  else codePoint c

/-- A text between quotes. -/
def enclose (quote : Quote) (text : List Char) : String :=
  String.ofList (quote.mark :: text.flatMap (escape quote) ++ [quote.mark])

/-- A character between single quotes. -/
def quotedChar (c : Char) : String := enclose .single [c]

/-- A text between double quotes. -/
def quoted (text : String) : String := enclose .double text.toList

end Calculator.Text
