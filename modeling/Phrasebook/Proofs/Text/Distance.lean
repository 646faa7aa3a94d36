/-
  Phrasebook.Proofs.Text.Distance
  ────────────────────────────────
  **ROWS COUNT EDITS.**

  The distance that is computed row by row is the Levenshtein distance, by its
  usual recursion, and that is the least number of edits:

      levenshtein_le_cons, levenshtein_cons_le
                         —  one character more makes a difference of one at most
      rowDistance_eq_levenshtein
                         —  rows against the recursion
      Edits.levenshtein_le, edits_levenshtein
                         —  no fewer edits will do, and so many will
-/
import Phrasebook.Text.Distance

namespace Phrasebook

/-! ## §1. The usual recursion. -/

/-- The Levenshtein distance: the least of what it takes to delete the first
character, to insert one, and to keep or replace it. -/
def levenshtein : List Char → List Char → Nat
  | [], t => t.length
  | _ :: s, [] => s.length + 1
  | c :: s, d :: t =>
    min (levenshtein s (d :: t) + 1)
      (min (levenshtein (c :: s) t + 1) (levenshtein s t + if c = d then 0 else 1))
  termination_by s t => s.length + t.length

theorem levenshtein_nil_left (t : List Char) : levenshtein [] t = t.length := by
  rw [levenshtein]

theorem levenshtein_nil_right (s : List Char) : levenshtein s [] = s.length := by
  cases s with
  | nil => exact levenshtein_nil_left []
  | cons c s => rw [levenshtein, List.length_cons]

theorem levenshtein_cons_cons (c d : Char) (s t : List Char) :
    levenshtein (c :: s) (d :: t) = min (levenshtein s (d :: t) + 1)
      (min (levenshtein (c :: s) t + 1) (levenshtein s t + if c = d then 0 else 1)) := by
  rw [levenshtein]

theorem levenshtein_comm (s t : List Char) : levenshtein s t = levenshtein t s := by
  fun_induction levenshtein s t with
  | case1 t => rw [levenshtein_nil_right]
  | case2 c s => rw [levenshtein_nil_left, List.length_cons]
  | case3 c s d t hdelete hinsert hkeep =>
    rw [levenshtein_cons_cons, hdelete, hinsert, hkeep]
    simp only [eq_comm (a := c)]
    omega

/-! ## §2. One character more. -/

theorem levenshtein_cons_le (d : Char) (s t : List Char) :
    levenshtein s (d :: t) ≤ levenshtein s t + 1 := by
  cases s with
  | nil => simp only [levenshtein_nil_left, List.length_cons, Nat.le_refl]
  | cons c s =>
    rw [levenshtein_cons_cons]
    omega

theorem levenshtein_cons_le_left (c : Char) (s t : List Char) :
    levenshtein (c :: s) t ≤ levenshtein s t + 1 := by
  rw [levenshtein_comm (c :: s), levenshtein_comm s]
  exact levenshtein_cons_le c t s

theorem levenshtein_le_cons (d : Char) (s t : List Char) :
    levenshtein s t ≤ levenshtein s (d :: t) + 1 := by
  induction s with
  | nil =>
    simp only [levenshtein_nil_left, List.length_cons]
    omega
  | cons c s ih =>
    -- whichever of the three ways is the shortest, deleting the first character is near it
    have hdelete := levenshtein_cons_le_left c s t
    rw [levenshtein_cons_cons]
    omega

theorem levenshtein_le_cons_left (c : Char) (s t : List Char) :
    levenshtein s t ≤ levenshtein (c :: s) t + 1 := by
  rw [levenshtein_comm (c :: s), levenshtein_comm s]
  exact levenshtein_le_cons c t s

/-! ## §3. Rows. -/

/-- A first character that both texts have may be kept. -/
theorem levenshtein_cons_self (c : Char) (s t : List Char) :
    levenshtein (c :: s) (c :: t) = levenshtein s t := by
  have hdelete := levenshtein_le_cons c s t
  have hinsert := levenshtein_le_cons_left c s t
  rw [levenshtein_cons_cons, if_pos rfl]
  omega

theorem distance_eq_levenshtein (s t : List Char) : distance s t = levenshtein s t := by
  -- by induction on both texts, as the recursion goes along the second one for each
  -- character of the first one
  induction s generalizing t with
  | nil => exact (levenshtein_nil_left t).symm
  | cons c s ihs =>
    rw [distance]
    induction t with
    | nil => rw [distanceFrom, levenshtein_nil_right, List.length_cons]
    | cons d t iht =>
      rw [distanceFrom]
      split
      · next heq => rw [heq, levenshtein_cons_self, ihs]
      · next hne =>
        rw [iht, ihs, ihs, levenshtein_cons_cons, if_neg hne]
        omega

theorem rowDistance_eq_levenshtein (s t : List Char) : rowDistance s t = levenshtein s t := by
  rw [rowDistance_eq, distance_eq_levenshtein]

/-! ## §4. Edits. -/

/-- The second text comes from the first one by inserting, deleting or
replacing one character. -/
inductive Edit : List Char → List Char → Prop where
  | insert (c : Char) (s : List Char) : Edit s (c :: s)
  | delete (c : Char) (s : List Char) : Edit (c :: s) s
  | replace (c d : Char) (s : List Char) : Edit (c :: s) (d :: s)
  /-- Further back. -/
  | behind (c : Char) {s t : List Char} (h : Edit s t) : Edit (c :: s) (c :: t)

/-- So many edits, one after the other. -/
inductive Edits : Nat → List Char → List Char → Prop where
  | none (s : List Char) : Edits 0 s s
  | more {n : Nat} {s t u : List Char} (h : Edit s t) (later : Edits n t u) : Edits (n + 1) s u

section

variable {n : Nat} {s t : List Char}

theorem Edits.behind (c : Char) (h : Edits n s t) : Edits n (c :: s) (c :: t) := by
  induction h with
  | none s => exact .none (c :: s)
  | more h _ ih => exact .more (h.behind c) ih

theorem Edits.least {m : Nat} (h : Edits n s t) (h' : Edits m s t) : Edits (min n m) s t := by
  rw [Nat.min_def]
  split
  · exact h
  · exact h'

/-- The distance is a number of edits that will do. -/
theorem edits_levenshtein (s t : List Char) : Edits (levenshtein s t) s t := by
  fun_induction levenshtein s t with
  | case1 t =>
    induction t with
    | nil => exact .none []
    | cons d t ih => exact .more (.insert d []) (ih.behind d)
  | case2 c s =>
    induction s generalizing c with
    | nil => exact .more (.delete c []) (.none [])
    | cons d s ih => exact .more (.delete c (d :: s)) (ih d)
  | case3 c s d t hdelete hinsert hkeep =>
    -- each of the three ways is a chain of edits, so the shortest of them is one
    refine .least (.more (.delete c s) hdelete) (.least ?_ ?_)
    · exact .more (.insert d (c :: s)) (hinsert.behind d)
    · by_cases h : c = d
      · rw [if_pos h, h]
        exact hkeep.behind d
      · rw [if_neg h]
        exact .more (.replace c d s) (hkeep.behind d)

/-- One edit brings a text nearer to another one by one at most. -/
theorem Edit.levenshtein_le (h : Edit s t) (u : List Char) :
    levenshtein s u ≤ levenshtein t u + 1 := by
  induction h generalizing u with
  | insert c s => exact levenshtein_le_cons_left c s u
  | delete c s => exact levenshtein_cons_le_left c s u
  | replace c d s =>
    -- by induction on the other text: replacing only matters where it is read
    induction u with
    | nil => simp only [levenshtein_nil_right, List.length_cons, Nat.le_add_right]
    | cons e u ih =>
      simp only [levenshtein_cons_cons]
      split <;> split <;> omega
  | @behind c s t _ hst =>
    -- the edit is further back in all three ways
    induction u with
    | nil =>
      have hnil := hst []
      simp only [levenshtein_nil_right, List.length_cons] at hnil ⊢
      omega
    | cons e u ih =>
      have hdelete := hst (e :: u)
      have hkeep := hst u
      simp only [levenshtein_cons_cons]
      omega

theorem levenshtein_self (s : List Char) : levenshtein s s = 0 := by
  induction s with
  | nil => exact levenshtein_nil_left []
  | cons c s ih => rw [levenshtein_cons_self, ih]

/-- No fewer edits than the distance will do. -/
theorem Edits.levenshtein_le (h : Edits n s t) : levenshtein s t ≤ n := by
  induction h with
  | none s => exact Nat.le_of_eq (levenshtein_self s)
  | more h _ ih => exact Nat.le_trans (h.levenshtein_le _) (Nat.succ_le_succ ih)

theorem levenshtein_le_iff : levenshtein s t ≤ n ↔ ∃ k, k ≤ n ∧ Edits k s t :=
  ⟨fun h => ⟨_, h, edits_levenshtein s t⟩, fun ⟨_, hk, h⟩ => Nat.le_trans h.levenshtein_le hk⟩

theorem levenshtein_pos_iff : 0 < levenshtein s t ↔ s ≠ t := by
  constructor
  · rintro hpos rfl
    rw [levenshtein_self] at hpos
    exact Nat.lt_irrefl 0 hpos
  · intro hne
    refine Nat.pos_of_ne_zero fun hzero => hne ?_
    -- without an edit there is no difference
    have hedits := edits_levenshtein s t
    rw [hzero] at hedits
    cases hedits
    rfl

end

end Phrasebook
