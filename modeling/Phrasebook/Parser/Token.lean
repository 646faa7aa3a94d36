/-
  Phrasebook.Parser.Token
  ────────────────────────────────
  **BLANKS, NAMES, NUMBERS AND LISTS.**

  The readers that the three parts of the grammar (literals, expressions,
  entries) share.  Lists separated by commas come in two kinds:

      looseList   —  arrays and hashes: a comma may follow the last item
      tightList   —  calls, parameters, an index: a comma announces an item
-/
import Phrasebook.Name
import Phrasebook.Parser.Basic
import Phrasebook.Text.Blank

namespace Phrasebook

namespace Parser

variable {α : Type}

/-! ## §1. Blanks. -/

/-- Read the blanks ahead. -/
def blank : Parser Unit :=
  fun s => .ok () (dropBlank s)

/-- Read the blanks ahead, and say whether there were any. -/
def someBlank : Parser Bool :=
  fun s => .ok ((s.head?.map isBlank).getD false) (dropBlank s)

/-! ## §2. Names and numbers. -/

/-- Read a name. -/
def name : Parser String := do
  let starts ← ahead fun s => (s.head?.map isNameStart).getD false
  if starts then
    let letters ← takeWhile isNameRest
    pure (String.ofList letters)
  else
    stop .name

/-- The value of a run of decimal digits. -/
def digitsValue (digits : List Char) : Nat :=
  digits.foldl (fun n c => 10 * n + (c.toNat - '0'.toNat)) 0

/-- Read a run of digits as an integer of at most 63 bits. -/
def number : Parser Int64 := fun s =>
  let n := digitsValue (s.takeWhile Char.isDigit)
  if (n : Int) ≤ Int64.maxValue.toInt then .ok (Int64.ofNat n) (s.dropWhile Char.isDigit)
  else .fail .smallerNumber s

/-! ## §3. Lists separated by commas. -/

/-- Read the items of a list up to its end, after its opening bracket.  An
item is followed by a comma or by the end of the list. -/
def looseList (list : Enumeration) (item : Parser α) : Parser (List α) := do
  blank
  collect do
    let ended ← eat list.close
    if ended then
      pure none
    else
      let a ← item
      blank
      let comma ← eat ","
      if comma then
        blank
        pure (some a)
      else
        let ends ← isAhead list.close
        if ends then pure (some a) else stop (.separator list)

/-- Read the items of a list up to its end, after its opening bracket.  A
comma is followed by one more item. -/
def tightList (list : Enumeration) (item : Parser α) : Parser (List α) := do
  blank
  let empty ← eat list.close
  if empty then
    pure []
  else
    let first ← item
    let others ← collect do
      blank
      let comma ← eat ","
      if comma then
        blank
        let a ← item
        pure (some a)
      else
        let ended ← eat list.close
        if ended then pure none else stop (.separator list)
    pure (first :: others)

end Parser

end Phrasebook
