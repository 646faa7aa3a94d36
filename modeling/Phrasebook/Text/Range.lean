/-
  Phrasebook.Text.Range
  ────────────────────────────────
  **SETS OF CHARACTERS.**

  A property of characters that follows no rule is kept as a table: the
  ranges of its code points, each by its first and its last, in ascending
  order and apart.  The tables are those of Unicode 17, but for U+FF9E and
  U+FF9F, which are no extenders, and U+1F1AE, which is wide.

      isInRanges_iff   —  a character is in a table iff it is in one of its
                          ranges
-/

namespace Phrasebook

/-- Ranges of code points, each by its first and its last. -/
abbrev Ranges : Type := List (Nat × Nat)

/-- Is the character in one of the ranges? -/
def isInRanges (c : Char) (ranges : Ranges) : Bool :=
  ranges.any fun (first, last) => first ≤ c.toNat && c.toNat ≤ last

/-- A character is in a table iff it is in one of its ranges. -/
theorem isInRanges_iff (c : Char) (ranges : Ranges) :
    isInRanges c ranges = true ↔ ∃ r ∈ ranges, r.1 ≤ c.toNat ∧ c.toNat ≤ r.2 := by
  simp [isInRanges]

end Phrasebook
