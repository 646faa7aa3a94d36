/-
  Phrasebook.Number.Numeral
  ────────────────────────────────
  **READING NUMERALS.**

      natural? text    —  digits, with an optional `+`
      integer? text    —  digits, with an optional sign
      float? text      —  digits with an optional sign, point and exponent,
                          rounded to the nearest float

  A numeral is the whole text: no blanks, no separators, at least one digit.
  The two integer readers take the bounds of the type they read for.
-/
import Phrasebook.Number.Layout

namespace Phrasebook

/-! ## §1. Digits. -/

/-- The value of a text of digits; there is none of an empty text. -/
def digits? (s : List Char) : Option Nat :=
  if s.isEmpty || !s.all Char.isDigit then none
  else some (s.foldl (fun n c => 10 * n + (c.toNat - '0'.toNat)) 0)

/-! ## §2. Integers. -/

/-- A natural number of at most `bits` bits. -/
def natural? (bits : Nat) (text : String) : Option Nat :=
  let value := match text.toList with
    | '+' :: s => digits? s
    | s => digits? s
  value.filter (· < Nat.pow 2 bits)

/-- An integer of at most 64 bits, with its sign. -/
def integer? (text : String) : Option Int64 :=
  let value : Option Int := match text.toList with
    | '-' :: s => (digits? s).map fun n => -(n : Int)
    | '+' :: s => (digits? s).map fun n => (n : Int)
    | s => (digits? s).map fun n => (n : Int)
  (value.filter fun n => Int64.minValue.toInt ≤ n && n ≤ Int64.maxValue.toInt).map
    Int64.ofInt

/-! ## §3. Floats. -/

/-- The float nearest to `digits · 10 ^ exponent`.  Far outside the range of
floats the answer is known without computing the power. -/
def nearestFloat (digits : Nat) (exponent : Int) : Float :=
  let size : Int := (decimalDigits digits).length + exponent
  if digits = 0 || size < -400 then 0
  else if 400 < size then 1.0 / 0.0
  else Float.ofScientific digits (exponent < 0) exponent.natAbs

/-- Digits with an optional point and exponent. -/
def unsignedFloat? (s : List Char) : Option Float := do
  let isMark := fun c => c == 'e' || c == 'E'
  let body := s.takeWhile (!isMark ·)
  let whole := body.takeWhile (· != '.')
  let places := (body.dropWhile (· != '.')).drop 1
  let digits ← digits? (whole ++ places)
  let shift : Int ← match s.dropWhile (!isMark ·) with
    | [] => pure 0
    | _ :: '-' :: e => (digits? e).map fun n => -(n : Int)
    | _ :: '+' :: e => (digits? e).map fun n => (n : Int)
    | _ :: e => (digits? e).map fun n => (n : Int)
  pure (nearestFloat digits (shift - places.length))

/-- A float in decimal, or one of the words for what is no finite number. -/
def float? (text : String) : Option Float :=
  match text.toList with
  | '-' :: s => (magnitude? s).map fun x => -x
  | '+' :: s => magnitude? s
  | s => magnitude? s
where
  /-- A float without its sign. -/
  magnitude? (s : List Char) : Option Float :=
    if s = "inf".toList then some (1.0 / 0.0)
    else if s = "NaN".toList then some (0.0 / 0.0)
    else unsignedFloat? s

end Phrasebook
