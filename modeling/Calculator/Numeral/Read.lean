import Calculator.Numeral.Decimal

/-!
# Reading numbers

The grammar of the numbers that an expression may hold when it is evaluated,
which is wider than what the scanner lets through:

* an optional sign;
* then one of the words `inf`, `infinity` and `nan`, in any letter case;
* or digits, of which some may follow a point, with at least one digit in all,
  and an optional exponent: the letter `e` in either case, an optional sign
  and at least one digit.

`read?` gives the double nearest to the number.
-/

namespace Calculator.Numeral

/-- The number that digits write, most significant first. -/
def ofDigits (digits : List Char) : Nat := Nat.ofDigitChars 10 digits 0

/-- The size past which an exponent's digits no longer count.  A number with
so large an exponent is past every double, or nothing, whatever follows. -/
def exponentLimit : Nat := 0x10000

/-- The size of the exponent that digits write. -/
def exponentSize (digits : List Char) : Nat :=
  digits.foldl (fun n c => if n < exponentLimit then 10 * n + (c.toNat - '0'.toNat) else n) 0

/-- A text without its sign, which is plus when none is written. -/
def splitSign : List Char → Sign × List Char
  | '+' :: rest => (.plus, rest)
  | '-' :: rest => (.minus, rest)
  | text => (.plus, text)

/-- The exponent that ends a number; an absent one is zero. -/
def readExponent? : List Char → Option Int
  | [] => some 0
  | c :: rest =>
    if c = 'e' || c = 'E' then
      let (sign, digits) := splitSign rest
      if digits.isEmpty || !digits.all Char.isDigit then none
      else match sign with
        | .plus => some (exponentSize digits)
        | .minus => some (-(exponentSize digits : Int))
    else none

/-- The fraction that may follow the whole part of a number, and what follows
it. -/
def splitFraction : List Char → List Char × List Char
  | '.' :: rest => (rest.takeWhile Char.isDigit, rest.dropWhile Char.isDigit)
  | text => ([], text)

/-- The decimal that a text without a sign writes. -/
def readDecimal? (text : List Char) : Option Decimal :=
  let whole := text.takeWhile Char.isDigit
  let (fraction, rest) := splitFraction (text.dropWhile Char.isDigit)
  if whole.isEmpty && fraction.isEmpty then none
  else (readExponent? rest).map fun exponent =>
    ⟨ofDigits (whole ++ fraction), exponent - fraction.length⟩

/-- The double that a text writes, if it writes a number. -/
def read? (text : String) : Option Float :=
  let (sign, body) := splitSign text.toList
  let word := String.ofList (body.map Char.toLower)
  if word = "inf" || word = "infinity" then some (toFloat sign infinity)
  else if word = "nan" then some notANumber
  else (readDecimal? body).map fun d => toFloat sign d.magnitude

end Calculator.Numeral
