/-
  Phrasebook.Eval.Selection
  ────────────────────────────────
  **SELECTION FROM ARRAYS AND HASHES.**

  A path of selectors picks a variant out of nested arrays and hashes: the
  first selector at the outermost one, and so on.  Where a selector fits
  nothing, or there is none, the default counts; without a default the whole
  collection is the value.
-/
import Phrasebook.Number.Numeral
import Phrasebook.Eval.Error

namespace Phrasebook

/-- The position that a selector names in an array of `size` elements: a
number, or a text that reads as one. -/
def elementPosition (selector : Value) (size : Nat) : Option Nat :=
  let position := match selector with
    | .number n => if 0 ≤ n.toInt then some n.toInt.toNat else none
    | .text s => natural? 64 s
    | _ => none
  position.filter (· < size)

/-- The element picked by the first selector, if there is one, else the
default, else the whole array. -/
def pickElement (path : List Value) (default : Option Nat) (elements : List Value) : Value :=
  let selected := path.head?.bind fun selector => elementPosition selector elements.length
  match (selected.or default).bind fun i => elements[i]? with
  | some v => v
  | none => .array elements

/-- The item picked by the first selector, if there is one, else the default,
else the whole hash. -/
def pickItem (path : List Value) (default : Option String) (items : List (String × Value)) :
    Value :=
  let selected := path.head?.bind fun selector => Value.item? selector.display items
  match selected.or (default.bind fun key => Value.item? key items) with
  | some v => v
  | none => .hash items

/-- The property of a value that is no reference. -/
def propertyOf (base key : Value) : Except EvalError Value :=
  let found := match base with
    | .hash items => Value.item? key.display items
    | .array elements =>
      (elementPosition key elements.length).bind fun i => elements[i]?
    | _ => none
  match found with
  | some v => .ok v
  | none => .error (.propertyNotFound key.display base.kind)

end Phrasebook
