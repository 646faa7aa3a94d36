/-
  Phrasebook.Number.Dyadic
  ────────────────────────────────
  **FLOATS AS DYADIC NUMBERS.**

  A finite float is `± mantissa · 2 ^ exponent`, exactly.  What a decimal
  text, a remainder or a conversion to an integer asks of a float is said
  on that form, in whole numbers, with no rounding on the way.

      FloatValue.ofFloat x      —  not a number, an infinity, or a dyadic number
      FloatValue.integer? r     —  the integer that the number is, if it is one
      floatRemainder a b  —  the exact remainder, with the sign of `a`
-/

namespace Phrasebook

/-! ## §1. Decoding. -/

/-- The number that a float stands for. -/
inductive FloatValue where
  /-- Not a number. -/
  | nan
  /-- An infinity with its sign. -/
  | infinite (negative : Bool)
  /-- `± mantissa · 2 ^ exponent`; zero keeps its sign. -/
  | finite (negative : Bool) (mantissa : Nat) (exponent : Int)
  deriving Repr, DecidableEq

/-- The least exponent of a float. -/
def minExponent : Int := -1074

/-- The 53rd bit of a mantissa, which is set in every float but the smallest
and so is not stored. -/
def hiddenBit : Nat := Nat.pow 2 52

namespace FloatValue

/-- The number a float stands for. -/
def ofFloat (x : Float) : FloatValue :=
  let bits : Nat := x.toBits.toNat
  let negative := bits / Nat.pow 2 63 == 1
  let biased : Nat := bits / hiddenBit % 2048
  let fraction : Nat := bits % hiddenBit
  if biased = 2047 then
    if fraction = 0 then .infinite negative else .nan
  else if biased = 0 then
    .finite negative fraction minExponent
  else
    .finite negative (fraction + hiddenBit) (minExponent + ((biased : Int) - 1))

/-- The integer that the number is, if it is one. -/
def integer? : FloatValue → Option Int
  | .nan | .infinite _ => none
  | .finite negative m e =>
    let size : Option Nat :=
      if 0 ≤ e then some (m * Nat.pow 2 e.toNat)
      else
        let unit : Nat := Nat.pow 2 (-e).toNat
        if m % unit = 0 then some (m / unit) else none
    size.map fun n => if negative then -(n : Int) else n

end FloatValue

/-! ## §2. Encoding. -/

/-- The float `2 ^ e`, for the exponents of floats. -/
def powerOfTwo (e : Int) : Float :=
  if e < -1022 then Float.ofBits (Nat.pow 2 (e - minExponent).toNat).toUInt64
  else Float.ofBits ((e + 1023).toNat * hiddenBit).toUInt64

/-- The float `± mantissa · 2 ^ exponent`; exact where there is one. -/
def floatOfDyadic (negative : Bool) (mantissa : Nat) (exponent : Int) : Float :=
  let size := Float.ofNat mantissa * powerOfTwo exponent
  if negative then -size else size

/-! ## §3. Remainders. -/

/-- The remainder of a division that truncates, exact and with the sign of
the dividend.  There is none of an infinity or by zero. -/
def floatRemainder (a b : Float) : Float :=
  match FloatValue.ofFloat a, FloatValue.ofFloat b with
  | .finite negative m e, .finite _ n f =>
    if n = 0 then 0.0 / 0.0
    else
      let common := min e f
      let dividend := m * Nat.pow 2 (e - common).toNat
      let divisor := n * Nat.pow 2 (f - common).toNat
      floatOfDyadic negative (dividend % divisor) common
  | .finite _ _ _, .infinite _ => a
  | _, _ => 0.0 / 0.0

end Phrasebook
