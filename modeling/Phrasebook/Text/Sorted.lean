/-
  Phrasebook.Text.Sorted
  ────────────────────────────────
  **SORTED LISTS.**

  Names are shown in the order of their code points, suggestions nearest
  first.  Both orders are total, so the sorted list does not depend on the
  order of the unsorted one.

      mem_sortBy    —  sorting neither loses nor invents an item
-/

namespace Phrasebook

variable {α : Type}

/-- Insert an item in front of the first one that does not come before it. -/
def insertBy (before : α → α → Bool) (a : α) : List α → List α
  | [] => [a]
  | b :: bs => if before b a then b :: insertBy before a bs else a :: b :: bs

/-- The items of a list in order. -/
def sortBy (before : α → α → Bool) : List α → List α
  | [] => []
  | a :: as => insertBy before a (sortBy before as)

theorem mem_insertBy {before : α → α → Bool} {a x : α} {as : List α} :
    x ∈ insertBy before a as ↔ x = a ∨ x ∈ as := by
  induction as with
  | nil => simp [insertBy]
  | cons b bs ih =>
    unfold insertBy
    split
    · simp only [List.mem_cons, ih]
      constructor
      · rintro (h | h | h)
        · exact .inr (.inl h)
        · exact .inl h
        · exact .inr (.inr h)
      · rintro (h | h | h)
        · exact .inr (.inl h)
        · exact .inl h
        · exact .inr (.inr h)
    · simp

theorem mem_sortBy {before : α → α → Bool} {x : α} {as : List α} :
    x ∈ sortBy before as ↔ x ∈ as := by
  induction as with
  | nil => simp [sortBy]
  | cons a as ih => simp [sortBy, mem_insertBy, ih]

/-- Texts in the order of their code points. -/
def sortTexts (texts : List String) : List String :=
  sortBy (fun a b => decide (a < b)) texts

end Phrasebook
