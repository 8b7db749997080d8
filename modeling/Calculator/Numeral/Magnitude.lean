/-!
# Magnitudes of doubles

A double without its sign is a bit pattern, and as numbers the bit patterns
are in the order of the values they stand for.  So this module calls the bit
pattern a *magnitude* and works on natural numbers throughout.

Every finite double is a whole number of *units* of `2 ^ (-1074)`, the least
positive double.

* `units` is the value of a magnitude in units.
* `atMost` is the greatest magnitude whose value is not above a given number
  of units.
* `nearest` is the magnitude nearest to a quotient of naturals, with halves
  going to the even neighbour and values past the greatest double going to
  infinity.  It is exact: nothing is rounded before the last step.
* `Sign`, `toFloat` and `ofFloat?` tie signs and magnitudes to floats.
-/

namespace Calculator.Numeral

/-- The number of patterns from one power of two to the next, `2 ^ 52`. -/
def binade : Nat := 0x10000000000000

/-- A unit is `2 ^ (-unitExponent)`. -/
def unitExponent : Nat := 1074

/-- The magnitude of infinity.  All smaller ones are finite. -/
def infinity : Nat := 2047 * binade

/-- The value of a finite magnitude in units. -/
def units (magnitude : Nat) : Nat :=
  if magnitude < binade then magnitude
  else (binade + magnitude % binade) <<< (magnitude / binade - 1)

/-- The greatest magnitude whose value is at most `n` units: the leading 53
bits of `n`, put after the count of the bits that follow them. -/
def atMost (n : Nat) : Nat :=
  let dropped := n.log2 - 52
  dropped * binade + n >>> dropped

/-- The magnitude nearest to `num / den` units, the even one of two that are
equally near. -/
def nearest (num den : Nat) : Nat :=
  let below := atMost (num / den)
  if infinity ≤ below then infinity
  else match compare (2 * num) ((units below + units (below + 1)) * den) with
    | .lt => below
    | .gt => below + 1
    | .eq => below + below % 2

/-! ## Signs -/

/-- The sign of a number; zero and infinity have one too. -/
inductive Sign where
  | plus
  | minus
deriving DecidableEq, Inhabited

/-- The pattern of the sign bit alone, `2 ^ 63`. -/
def signBit : Nat := 0x8000000000000000

/-- The double with a given sign and magnitude. -/
def toFloat (sign : Sign) (magnitude : Nat) : Float :=
  match sign with
  | .plus => Float.ofBits (UInt64.ofNat magnitude)
  | .minus => Float.ofBits (UInt64.ofNat (signBit + magnitude))

/-- The double that is no number. -/
def notANumber : Float := Float.ofBits (UInt64.ofNat (infinity + binade / 2))

/-- The sign and magnitude of a double, `none` for the one that is no
number. -/
def ofFloat? (x : Float) : Option (Sign × Nat) :=
  let bits := x.toBits.toNat
  let magnitude := bits % signBit
  if infinity < magnitude then none
  else some (if bits < signBit then .plus else .minus, magnitude)

end Calculator.Numeral
