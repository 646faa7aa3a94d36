/-
  Phrasebook.Text.Blank
  ────────────────────────────────
  **BLANK CHARACTERS.**

  The blanks of a resource are the characters with the Unicode property
  White_Space, and not only the ASCII ones: a resource typed with a
  no-break space or an ideographic space between its entries reads like
  one typed with plain spaces.

      dropBlank s   —  `s` without its leading blanks
-/

namespace Phrasebook

/-! ## §1. The property White_Space. -/

/-- Has the character the Unicode property White_Space? -/
def isBlank (c : Char) : Bool :=
  let n := c.toNat
  (9 ≤ n && n ≤ 13) || n == 32 || n == 0x85 || n == 0xA0 || n == 0x1680
    || (0x2000 ≤ n && n ≤ 0x200A) || n == 0x2028 || n == 0x2029
    || n == 0x202F || n == 0x205F || n == 0x3000

/-! ## §2. Leading and trailing blanks. -/

/-- The text without its leading blanks. -/
def dropBlank (s : List Char) : List Char :=
  s.dropWhile isBlank

/-- The text without its leading and trailing blanks. -/
def trimBlank (s : List Char) : List Char :=
  (dropBlank (dropBlank s).reverse).reverse

/-- No text starts with a blank once its leading blanks are gone. -/
theorem dropBlank_dropBlank (s : List Char) :
    dropBlank (dropBlank s) = dropBlank s := by
  induction s with
  | nil => rfl
  | cons c r ih =>
    unfold dropBlank at ih ⊢
    cases h : isBlank c <;> simp [h, ih]

theorem dropBlank_of_blank {gap : List Char} (h : ∀ c ∈ gap, isBlank c = true) (s : List Char) :
    dropBlank (gap ++ s) = dropBlank s :=
  List.dropWhile_append_of_pos h

theorem dropBlank_of_solid {s : List Char} (h : ∀ c ∈ s.head?, isBlank c = false) :
    dropBlank s = s := by
  unfold dropBlank
  cases s with
  | nil => rfl
  | cons c s => rw [List.dropWhile_cons_of_neg (by simp [h c rfl])]

end Phrasebook
