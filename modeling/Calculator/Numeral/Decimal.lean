import Calculator.Numeral.Magnitude

/-!
# Decimals

A decimal is a natural number times a power of ten.  `Decimal.magnitude` is
the double nearest to it, and `Decimal.positional` writes it without an
exponent.
-/

namespace Calculator.Numeral

/-- The value `digits * 10 ^ exponent`. -/
structure Decimal where
  digits : Nat
  exponent : Int
deriving DecidableEq, Inhabited

namespace Decimal

/-- The number of units in one. -/
def unitsInOne : Nat := 1 <<< unitExponent

/-- The magnitude nearest to a decimal.

A decimal that is positive and has an exponent above 308 is past every double,
and one below `10 ^ (-400)` is far less than half a unit; neither needs its
power of ten. -/
def magnitude (d : Decimal) : Nat :=
  if d.digits = 0 then 0
  else if 308 < d.exponent then infinity
  else if d.exponent + (d.digits.log2 + 1) < -400 then 0
  else match d.exponent with
    | .ofNat e => nearest (d.digits * Nat.pow 10 e * unitsInOne) 1
    | .negSucc e => nearest (d.digits * unitsInOne) (Nat.pow 10 (e + 1))

/-- Digits with a point before the last `places` of them.  Digits that do not
reach the point are filled up with zeros, and at least one digit stands before
it. -/
def withPoint (digits : List Char) (places : Nat) : List Char :=
  let filled := List.replicate (places + 1 - digits.length) '0' ++ digits
  filled.take (filled.length - places) ++ '.' :: filled.drop (filled.length - places)

/-- A decimal written out without an exponent. -/
def positional (d : Decimal) : List Char :=
  let digits := Nat.toDigits 10 d.digits
  match d.exponent with
  | .ofNat e => digits ++ List.replicate e '0'
  | .negSucc e => withPoint digits (e + 1)

end Decimal

end Calculator.Numeral
