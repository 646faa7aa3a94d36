/-
  Phrasebook.Number.Shortest
  ────────────────────────────────
  **THE FEWEST DIGITS THAT READ BACK.**

  The decimal text of a float has no more digits than it takes to tell the
  float from its neighbours.  The reals that round to the float form an
  interval around it, ends included iff the mantissa is even.  For a grid of
  spacing `10 ^ k` only the two grid points around the float matter; the
  coarsest grid with a point in the interval wins, and of two such points
  the nearer one.

  All comparisons are between whole numbers: four times the mantissa, and
  the grid points, are brought to one common unit.
-/
import Phrasebook.Number.Dyadic

namespace Phrasebook

/-- A number to be written: `digits · 10 ^ exponent`. -/
structure Digits where
  digits : Nat
  exponent : Int
  deriving Repr, DecidableEq

namespace Digits

/-- The interval of the real numbers that round to `mantissa · 2 ^ exponent`, with
its ends and middle in quarters of `2 ^ exponent`. -/
structure Interval where
  low : Nat
  middle : Nat
  high : Nat
  /-- Do the ends belong to it? -/
  closed : Bool

/-- The interval around a float.  Below a power of two the floats lie twice
as close. -/
def around (mantissa : Nat) (exponent : Int) : Interval :=
  { low := 4 * mantissa
      - (if mantissa = hiddenBit && minExponent < exponent then 1 else 2)
    middle := 4 * mantissa
    high := 4 * mantissa + 2
    closed := mantissa % 2 == 0 }

/-- Is the point of the interval? -/
def Interval.contains (i : Interval) (scale point : Nat) : Bool :=
  if i.closed then i.low * scale ≤ point && point ≤ i.high * scale
  else i.low * scale < point && point < i.high * scale

/-- The point of the grid of spacing `10 ^ k` that reads back, if there is
one: of the two points around the float, the nearer; the upper one, should
they be equally near. -/
def onGrid (i : Interval) (exponent k : Int) : Option Nat :=
  let scale := Nat.pow 2 (exponent - 2).toNat * Nat.pow 10 (-k).toNat
  let unit := Nat.pow 10 k.toNat * Nat.pow 2 (2 - exponent).toNat
  let middle := i.middle * scale
  let below := middle / unit
  let lower := i.contains scale (below * unit)
  let upper := i.contains scale ((below + 1) * unit)
  if lower && upper then
    if 2 * (middle - below * unit) < unit then some below else some (below + 1)
  else if lower then some below
  else if upper then some (below + 1)
  else none

/-- Search the grids from spacing `10 ^ k` downwards. -/
def search (i : Interval) (exponent : Int) : (steps : Nat) → (k : Int) → Digits
  | 0, k => ⟨(onGrid i exponent k).getD 0, k⟩
  | steps + 1, k =>
    match onGrid i exponent k with
    | some d => ⟨d, k⟩
    | none => search i exponent steps (k - 1)

/-- An exponent of ten that no float `mantissa · 2 ^ exponent` reaches. -/
def ceiling (mantissa : Nat) (exponent : Int) : Int :=
  ((mantissa.log2 + 1 + exponent) * 30103).fdiv 100000 + 1

/-- The fewest digits that read back as the positive float
`mantissa · 2 ^ exponent`. -/
def shortest (mantissa : Nat) (exponent : Int) : Digits :=
  search (around mantissa exponent) exponent 20 (ceiling mantissa exponent)

end Digits

end Phrasebook
