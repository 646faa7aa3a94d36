/-
  Phrasebook.Text.Distance
  ────────────────────────────────
  **EDIT DISTANCE.**

  How many characters must be inserted, deleted or replaced to turn one text
  into another:

      distance [] t            =  the length of t
      distance (c::s) []       =  1 + the length of s
      distance (c::s) (c::t)   =  distance s t
      distance (c::s) (d::t)   =  1 + the least of the distances of
                                  (c::s, t), (s, d::t) and (s, t)

  `distance` is that recursion.  It branches three ways, so the program
  computes a whole row at a time: a row holds the distances from one text to
  every suffix of another, and each row comes from the one before it.

      row_eq    —  the entries of a row are distances
-/

namespace Phrasebook

/-! ## §1. The recursion. -/

/-- The distance from `c :: s` to a text, where `shorter` is the distance
from `s` and `size` its length. -/
def distanceFrom (c : Char) (size : Nat) (shorter : List Char → Nat) : List Char → Nat
  | [] => size + 1
  | d :: t =>
    if c = d then shorter t
    else 1 + min (distanceFrom c size shorter t) (min (shorter (d :: t)) (shorter t))

/-- The edit distance of two texts. -/
def distance : List Char → List Char → Nat
  | [] => List.length
  | c :: s => distanceFrom c s.length (distance s)

/-! ## §2. Rows. -/

/-- All suffixes of a list, the longest first. -/
def suffixes {α : Type} : List α → List (List α)
  | [] => [[]]
  | a :: as => (a :: as) :: suffixes as

/-- The row for `c :: s`, from the row for `s`. -/
def nextRow (c : Char) : (t : List Char) → (row : List Nat) → List Nat
  | [], row => [row.headD 0 + 1]
  | d :: t, row =>
    let rest := nextRow c t row.tail
    let here :=
      if c = d then row.tail.headD 0
      else 1 + min (rest.headD 0) (min (row.headD 0) (row.tail.headD 0))
    here :: rest

/-- The distances from `s` to the suffixes of `t`, the longest first. -/
def row : (s t : List Char) → List Nat
  | [], t => (suffixes t).map List.length
  | c :: s, t => nextRow c t (row s t)

/-- The edit distance of two texts, by rows. -/
def rowDistance (s t : List Char) : Nat :=
  (row s t).headD 0

/-! ## §3. Rows hold distances. -/

theorem distance_nil_right (s : List Char) : distance s [] = s.length := by
  cases s <;> rfl

theorem headD_map_suffixes (f : List Char → Nat) (t : List Char) :
    ((suffixes t).map f).headD 0 = f t := by
  cases t <;> rfl

theorem nextRow_suffixes (c : Char) (s t : List Char) :
    nextRow c t ((suffixes t).map (distance s))
      = (suffixes t).map (distance (c :: s)) := by
  induction t with
  | nil => simp [suffixes, nextRow, distance_nil_right]
  | cons d t ih =>
    have hs : suffixes (d :: t) = (d :: t) :: suffixes t := rfl
    simp only [hs, List.map_cons, nextRow, List.tail_cons, ih, headD_map_suffixes,
      List.headD_cons]
    rfl

theorem row_eq (s t : List Char) : row s t = (suffixes t).map (distance s) := by
  induction s with
  | nil => rfl
  | cons c s ih => rw [row, ih, nextRow_suffixes]

theorem rowDistance_eq (s t : List Char) : rowDistance s t = distance s t := by
  rw [rowDistance, row_eq, headD_map_suffixes]

end Phrasebook
