import Calculator.Numeral.Decimal

/-!
# Writing numbers

The text that a double gets: the fewest digits that are read back as the same
double, and of those the nearest to it, without an exponent.

The decimals with a given exponent form a grid.  The coarsest grid with a
point that is read back as the double has the fewest digits, and the only
candidates on a grid are the two points next to the double.  `shortest?` tries
the grids from a coarse one to the one with exponent `-unitExponent`, on which
the double itself lies, because a power of two divides the same power of ten.
Each candidate is read back before it is taken, so whatever grid the search
ends on, the decimal it finds is the double's own.
-/

namespace Calculator.Numeral

/-- The quotient of a magnitude's value by `10 ^ exponent`, as a pair of
naturals. -/
def onGrid (magnitude : Nat) : Int → Nat × Nat
  | .ofNat e => (units magnitude, Decimal.unitsInOne * Nat.pow 10 e)
  | .negSucc e => (units magnitude * Nat.pow 10 (e + 1), Decimal.unitsInOne)

/-- The grid points next to a magnitude's value, the nearer one first.  Of two
that are equally near the upper one is first. -/
def neighbours (magnitude : Nat) (exponent : Int) : Decimal × Decimal :=
  let (num, den) := onGrid magnitude exponent
  let below : Decimal := ⟨num / den, exponent⟩
  let above : Decimal := ⟨num / den + 1, exponent⟩
  if 2 * (num % den) < den then (below, above) else (above, below)

/-- The nearest point of a grid that is read back as the magnitude, if one of
the two next to it is. -/
def pointOn? (magnitude : Nat) (exponent : Int) : Option Decimal :=
  let (first, second) := neighbours magnitude exponent
  if first.magnitude = magnitude then some first
  else if second.magnitude = magnitude then some second
  else none

/-- The point of the coarsest grid that has one, of the grids whose exponents
are below `steps - unitExponent`, or the value itself when none has. -/
def shortestFrom (magnitude : Nat) : (steps : Nat) → Decimal
  | 0 => ⟨units magnitude * Nat.pow 5 unitExponent, -unitExponent⟩
  | steps + 1 =>
    match pointOn? magnitude (steps - unitExponent) with
    | some d => d
    | none => shortestFrom magnitude steps

/-- The number of grids to try.  The power of ten of the first is not below
the value, because the value is less than two to the power of its bit count
and the logarithm of two to base ten is less than `0.30103`. -/
def gridCount (magnitude : Nat) : Nat :=
  (((units magnitude).log2 + 1) * 30103 + unitExponent * (100000 - 30103)) / 100000 + 2

/-- The shortest decimal that is read back as a finite magnitude. -/
def shortest (magnitude : Nat) : Decimal :=
  shortestFrom magnitude (gridCount magnitude)

/-- The text of a magnitude. -/
def writeMagnitude (magnitude : Nat) : List Char :=
  if magnitude = infinity then ['i', 'n', 'f']
  else if magnitude = 0 then ['0']
  else (shortest magnitude).positional

/-- The text of a double. -/
def write (x : Float) : String :=
  match ofFloat? x with
  | none => "NaN"
  | some (.plus, magnitude) => String.ofList (writeMagnitude magnitude)
  | some (.minus, magnitude) => String.ofList ('-' :: writeMagnitude magnitude)

end Calculator.Numeral
