/-
  Phrasebook.Number.Duration
  ────────────────────────────────
  **DURATIONS AS TEXT.**

  A duration is written in the largest unit in which it is at least one, in
  decimal and without trailing zeros: `50ms`, `1s`, `1.5s`, `61s`.
-/
import Phrasebook.Number.Layout

namespace Phrasebook

/-- The decimals of so many thousandths, without trailing zeros. -/
def thousandths (n : Nat) : List Char :=
  let digits := decimalDigits n
  let padded := List.replicate (3 - digits.length) '0' ++ digits
  (padded.reverse.dropWhile (· = '0')).reverse

/-- The text of a duration in milliseconds. -/
def durationText (milliseconds : Nat) : String :=
  if milliseconds = 0 then "0ns"
  else if milliseconds < 1000 then
    String.ofList (decimalDigits milliseconds ++ ['m', 's'])
  else
    let decimals := thousandths (milliseconds % 1000)
    let point := if decimals.isEmpty then [] else '.' :: decimals
    String.ofList (decimalDigits (milliseconds / 1000) ++ point ++ ['s'])

end Phrasebook
