/-
  Phrasebook.Proofs.Text.Sorted
  ────────────────────────────────
  **SORTING FORGETS THE ORDER BEFORE.**

  A sorted list is the unsorted one in another order, and there is only one
  list of these items in order:

      sortBy_perm          —  the same items, each as often
      pairwise_sortBy      —  in order, also where items come more than once
      sortTexts_pairwise   —  different texts come strictly one after the other
      sortTexts_eq_of_perm —  however they stood before
-/
import Phrasebook.Text.Sorted

namespace Phrasebook

section

variable {α : Type} {before : α → α → Bool}

/-! ## §1. The same items. -/

theorem insertBy_perm (a : α) (as : List α) : (insertBy before a as).Perm (a :: as) := by
  induction as with
  | nil => exact .refl [a]
  | cons b bs ih =>
    unfold insertBy
    split
    · exact (ih.cons b).trans (.swap a b bs)
    · exact .refl (a :: b :: bs)

theorem sortBy_perm (as : List α) : (sortBy before as).Perm as := by
  induction as with
  | nil => exact .nil
  | cons a as ih => exact (insertBy_perm a _).trans (ih.cons a)

/-! ## §2. In order. -/

variable {R : α → α → Prop}

theorem pairwise_insertBy (htrans : ∀ a b c, R a b → R b c → R a c)
    (hbefore : ∀ a b, before a b → R a b) (hafter : ∀ a b, ¬ before b a → R a b) (a : α)
    {as : List α} (has : as.Pairwise R) : (insertBy before a as).Pairwise R := by
  induction as with
  | nil => exact List.pairwise_singleton R a
  | cons b bs ih =>
    obtain ⟨hb, hbs⟩ := List.pairwise_cons.1 has
    unfold insertBy
    split
    · next hba =>
      -- the new item goes further back, behind this one
      refine List.pairwise_cons.2 ⟨fun c hc => ?_, ih hbs⟩
      rcases mem_insertBy.1 hc with rfl | hc
      · exact hbefore b c hba
      · exact hb c hc
    · next hba =>
      refine List.pairwise_cons.2 ⟨fun c hc => ?_, has⟩
      rcases List.mem_cons.1 hc with rfl | hc
      · exact hafter a c hba
      · exact htrans a b c (hafter a b hba) (hb c hc)

theorem pairwise_sortBy (htrans : ∀ a b c, R a b → R b c → R a c)
    (hbefore : ∀ a b, before a b → R a b) (hafter : ∀ a b, ¬ before b a → R a b)
    (as : List α) : (sortBy before as).Pairwise R := by
  induction as with
  | nil => exact .nil
  | cons a as ih => exact pairwise_insertBy htrans hbefore hafter a ih

end

/-! ## §3. Texts. -/

theorem sortTexts_pairwise_le (texts : List String) :
    (sortTexts texts).Pairwise fun a b => a ≤ b := by
  have htrans : ∀ a b c : String, a ≤ b → b ≤ c → a ≤ c := fun _ _ _ => String.le_trans
  refine pairwise_sortBy htrans (fun a b hlt => ?_) (fun a b hnot => ?_) texts
  · exact String.not_lt.1 (String.lt_asymm (of_decide_eq_true hlt))
  · exact String.not_lt.1 fun hlt => hnot (decide_eq_true hlt)

theorem sortTexts_pairwise {texts : List String} (h : texts.Nodup) :
    (sortTexts texts).Pairwise fun a b => a < b := by
  have hnodup : (sortTexts texts).Nodup := (sortBy_perm texts).nodup_iff.2 h
  refine ((sortTexts_pairwise_le texts).and hnodup).imp fun ⟨hle, hne⟩ => ?_
  -- of two different texts in order, the second one does not come first
  exact Decidable.byContradiction fun hlt => hne (String.le_antisymm hle (String.not_lt.1 hlt))

theorem sortTexts_eq_of_perm {texts others : List String} (h : texts.Perm others) :
    sortTexts texts = sortTexts others :=
  ((sortBy_perm texts).trans (h.trans (sortBy_perm others).symm)).eq_of_pairwise
    (fun _ _ _ _ => String.le_antisymm) (sortTexts_pairwise_le texts)
    (sortTexts_pairwise_le others)

end Phrasebook
