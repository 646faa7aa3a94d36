/-
  Phrasebook.Number.Layout
  ────────────────────────────────
  **NUMBERS AS TEXT.**

  Integers are written in decimal.  Floats are written with the fewest
  digits that read back, always positionally and never with an exponent; a
  whole number has no point, and zero keeps its sign.
-/
import Phrasebook.Number.Shortest

namespace Phrasebook

/-! ## §1. Integers. -/

/-- The decimal digits of a natural number. -/
def decimalDigits (n : Nat) : List Char :=
  Nat.toDigits 10 n

/-- An integer in decimal. -/
def integerText (n : Int) : String :=
  let digits := decimalDigits n.natAbs
  String.ofList (if n < 0 then '-' :: digits else digits)

/-! ## §2. Floats. -/

/-- `digits · 10 ^ exponent`, positionally. -/
def positional (d : Digits) : List Char :=
  let digits := decimalDigits d.digits
  if 0 ≤ d.exponent then
    digits ++ List.replicate d.exponent.toNat '0'
  else
    let places := (-d.exponent).toNat
    let padded := List.replicate (places + 1 - digits.length) '0' ++ digits
    let whole := padded.length - places
    padded.take whole ++ '.' :: padded.drop whole

/-- The decimal text of a float. -/
def floatText (x : Float) : String :=
  match FloatValue.ofFloat x with
  | .nan => "NaN"
  | .infinite negative => if negative then "-inf" else "inf"
  | .finite negative mantissa exponent =>
    let size := if mantissa = 0 then ['0'] else positional (Digits.shortest mantissa exponent)
    String.ofList (if negative then '-' :: size else size)

end Phrasebook
