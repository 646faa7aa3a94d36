/-
  Phrasebook.Proofs.Suggestion.Nearest
  ────────────────────────────────
  **THE NEAREST NAMES ARE SUGGESTED.**

  What should be suggested is said without an algorithm: available names near
  enough, the nearest of them, and no more than three.  There is one such list
  for every name and every stock of available names, in whatever order these
  come:

      Suggested           —  what a list of suggestions has to be
      suggestions_suggested, Suggested.unique
                          —  there is one such list
      suggestions_eq_iff  —  and it is the one that is made
      suggestions_eq_of_perm
                          —  the order of the available names does not matter
-/
import Mathlib.Data.List.Perm.Subperm
import Phrasebook.Proofs.Text.Distance
import Phrasebook.Proofs.Text.Sorted
import Phrasebook.Suggestion

namespace Phrasebook

/-! ## §1. Near names. -/

/-- How far another name is from the one asked for. -/
def editDistance (name other : String) : Nat :=
  levenshtein name.toList other.toList

/-- The most edits that are taken for a slip. -/
def nearLimit (name : String) : Nat :=
  if name.utf8ByteSize ≤ 3 then 1 else 2

/-- The name asked for may be a slip of the other one. -/
def IsNear (name other : String) : Prop :=
  0 < editDistance name other ∧ editDistance name other ≤ nearLimit name

instance (name other : String) : Decidable (IsNear name other) :=
  inferInstanceAs (Decidable (_ ∧ _))

/-- The first name is nearer, or as near and not behind the second one in the
alphabet. -/
def Ranked (name a b : String) : Prop :=
  editDistance name a < editDistance name b
    ∨ editDistance name a = editDistance name b ∧ a ≤ b

/-- What a list of suggestions has to be. -/
structure Suggested (name : String) (available result : List String) : Prop where
  /-- Only what is available, and nothing more often than that. -/
  offered : result.Subperm available
  near : ∀ other ∈ result, IsNear name other
  short : result.length ≤ 3
  ranked : result.Pairwise (Ranked name)
  /-- A near name is left out only for three others, none of which comes after
  it. -/
  best : ∀ other, IsNear name other → result.count other < available.count other →
    result.length = 3 ∧ ∀ a ∈ result, Ranked name a other

section

variable {name other : String} {available result : List String}

/-- Another name is near if a few edits make it of the one asked for. -/
theorem isNear_iff : IsNear name other
    ↔ name ≠ other ∧ ∃ k, k ≤ nearLimit name ∧ Edits k name.toList other.toList := by
  unfold IsNear editDistance
  rw [levenshtein_pos_iff, levenshtein_le_iff, ne_eq, String.toList_inj]

theorem Ranked.antisymm {a b : String} (h : Ranked name a b) (h' : Ranked name b a) : a = b := by
  rcases h with h | ⟨h, hle⟩
  · rcases h' with h' | ⟨h', -⟩
    · exact absurd h (Nat.lt_asymm h')
    · exact absurd h (h' ▸ Nat.lt_irrefl _)
  · rcases h' with h' | ⟨-, hle'⟩
    · exact absurd h' (h ▸ Nat.lt_irrefl _)
    · exact String.le_antisymm hle hle'

/-! ## §2. At most one list is right. -/

namespace Suggested

/-- Of two lists that are right, none has a name more often than the other. -/
theorem count_le (h : Suggested name available result) {others : List String}
    (h' : Suggested name available others) (x : String) : result.count x ≤ others.count x := by
  refine Nat.le_of_not_lt fun hx => ?_
  -- otherwise the name is left out of the other list, which is full without it
  have hmem : x ∈ result := List.count_pos_iff.1 (Nat.zero_lt_of_lt hx)
  obtain ⟨hfull, hrank⟩ :=
    h'.best x (h.near x hmem) (Nat.lt_of_lt_of_le hx (h.offered.count_le x))
  -- so that one has some name instead, which is left out here
  obtain ⟨y, hy⟩ : ∃ y, result.count y < others.count y := by
    by_contra hnone
    have hall : ∀ y ∈ others, others.count y ≤ result.count y :=
      fun y _ => Nat.le_of_not_lt fun hy => hnone ⟨y, hy⟩
    have hperm := (List.subperm_ext_iff.2 hall).perm_of_length_le (hfull ▸ h.short)
    exact Nat.lt_irrefl _ (hperm.count_eq x ▸ hx)
  have hmem' : y ∈ others := List.count_pos_iff.1 (Nat.zero_lt_of_lt hy)
  obtain ⟨-, hrank'⟩ :=
    h.best y (h'.near y hmem') (Nat.lt_of_lt_of_le hy (h'.offered.count_le y))
  -- each of the two comes before the other one
  obtain rfl : x = y := (hrank' x hmem).antisymm (hrank y hmem')
  exact Nat.lt_asymm hx hy

theorem unique (h : Suggested name available result) {others : List String}
    (h' : Suggested name available others) : result = others := by
  have hperm : result.Perm others :=
    List.perm_iff_count.2 fun x => Nat.le_antisymm (h.count_le h' x) (h'.count_le h x)
  exact hperm.eq_of_pairwise (fun _ _ _ _ => Ranked.antisymm) h.ranked h'.ranked

/-- What is right does not depend on the order of the available names. -/
theorem perm (h : Suggested name available result) {stock : List String}
    (hperm : available.Perm stock) : Suggested name stock result where
  offered := h.offered.trans hperm.subperm
  near := h.near
  short := h.short
  ranked := h.ranked
  best other hnear hcount := h.best other hnear (hperm.count_eq other ▸ hcount)

end Suggested

/-! ## §3. The list that is made. -/

theorem byteLength_ofList (s : List Char) : byteLength s = (String.ofList s).utf8ByteSize := by
  induction s with
  | nil => rfl
  | cons c s ih =>
    rw [byteLength, ih, String.ofList_cons, String.utf8ByteSize_append,
        String.utf8ByteSize_singleton]

theorem suggestionLimit_eq (name : String) : suggestionLimit name = nearLimit name := by
  unfold suggestionLimit nearLimit
  rw [byteLength_ofList, String.ofList_toList]

namespace Candidate

/-- A candidate is nearer than another one, or as near and not behind it in the
alphabet. -/
def Precedes (a b : Candidate) : Prop :=
  a.distance < b.distance ∨ a.distance = b.distance ∧ a.name ≤ b.name

theorem before_iff (a b : Candidate) :
    a.before b ↔ a.distance < b.distance ∨ a.distance = b.distance ∧ a.name < b.name := by
  unfold before
  simp only [Bool.or_eq_true, Bool.and_eq_true, decide_eq_true_eq, beq_iff_eq]

theorem precedes_trans (a b c : Candidate) (h : a.Precedes b) (h' : b.Precedes c) :
    a.Precedes c := by
  rcases h with h | ⟨h, hle⟩
  · exact .inl (h'.elim (Nat.lt_trans h) fun h' => h'.1 ▸ h)
  · rcases h' with h' | ⟨h', hle'⟩
    · exact .inl (h ▸ h')
    · exact .inr ⟨h.trans h', String.le_trans hle hle'⟩

theorem precedes_of_before (a b : Candidate) (h : a.before b) : a.Precedes b := by
  refine ((before_iff a b).1 h).imp_right fun ⟨heq, hlt⟩ => ⟨heq, ?_⟩
  exact String.not_lt.1 (String.lt_asymm hlt)

theorem precedes_of_not_before (a b : Candidate) (h : ¬ b.before a) : a.Precedes b := by
  rw [before_iff, not_or] at h
  rcases Nat.lt_trichotomy a.distance b.distance with hlt | heq | hgt
  · exact .inl hlt
  · exact .inr ⟨heq, String.not_lt.1 fun hlt => h.2 ⟨heq.symm, hlt⟩⟩
  · exact absurd hgt h.1

end Candidate

/-- The names of the candidates, ranked. -/
def rankedNames (name : String) (available : List String) : List String :=
  (sortBy Candidate.before (candidates name available)).map Candidate.name

theorem suggestions_eq : suggestions name available = (rankedNames name available).take 3 := by
  unfold suggestions rankedNames suggestionCount
  rw [List.map_take]

theorem distance_of_mem_candidates {c : Candidate} (h : c ∈ candidates name available) :
    c.distance = editDistance name c.name := by
  unfold candidates at h
  obtain ⟨other, -, rfl⟩ := List.mem_map.1 (List.mem_filter.1 h).1
  exact rowDistance_eq_levenshtein _ _

/-- The candidates are the available names that are near, each as often. -/
theorem rankedNames_perm (name : String) (available : List String) :
    (rankedNames name available).Perm (available.filter fun other => IsNear name other) := by
  refine ((sortBy_perm _).map Candidate.name).trans (.of_eq ?_)
  unfold candidates
  -- a candidate keeps its name, so the names may be filtered as well
  rw [List.filter_map, List.map_map]
  refine (List.map_id _).trans ?_
  refine List.filter_congr fun other _ => ?_
  rw [Bool.eq_iff_iff]
  simp only [Function.comp_apply, rowDistance_eq_levenshtein, suggestionLimit_eq,
    Bool.and_eq_true, decide_eq_true_eq]
  exact Iff.rfl

theorem rankedNames_ranked (name : String) (available : List String) :
    (rankedNames name available).Pairwise (Ranked name) := by
  have hsorted := pairwise_sortBy Candidate.precedes_trans Candidate.precedes_of_before
    Candidate.precedes_of_not_before (candidates name available)
  refine List.pairwise_map.2 (hsorted.imp_of_mem fun ha hb hab => ?_)
  unfold Ranked
  rw [← distance_of_mem_candidates (mem_sortBy.1 ha),
      ← distance_of_mem_candidates (mem_sortBy.1 hb)]
  exact hab

/-- The list that is made is right. -/
theorem suggestions_suggested (name : String) (available : List String) :
    Suggested name available (suggestions name available) := by
  -- the names that are suggested, and the ones that are left out
  have hsplit := List.take_append_drop 3 (rankedNames name available)
  have hperm := rankedNames_perm name available
  have hranked := rankedNames_ranked name available
  rw [← hsplit] at hperm hranked
  obtain ⟨hfirst, -, hacross⟩ := List.pairwise_append.1 hranked
  rw [suggestions_eq]
  refine ⟨?_, fun other hother => ?_, List.length_take_le 3 _, hfirst, fun other hnear hcount => ?_⟩
  · have hnear := hperm.subperm.trans List.filter_sublist.subperm
    exact (List.sublist_append_left _ _).subperm.trans hnear
  · have hmem := hperm.mem_iff.1 (List.mem_append_left _ hother)
    exact of_decide_eq_true (List.mem_filter.1 hmem).2
  · -- what is near and not suggested has been dropped behind three others
    have hall := hperm.count_eq other
    rw [List.count_append,
        List.count_filter (p := fun x => IsNear name x) (decide_eq_true hnear)] at hall
    have hdropped : other ∈ (rankedNames name available).drop 3 :=
      List.count_pos_iff.1 (by omega)
    have hlong := List.length_pos_of_mem hdropped
    rw [List.length_drop] at hlong
    exact ⟨List.length_take_of_le (by omega), fun a ha => hacross a ha other hdropped⟩

/-- Only available names are suggested. -/
theorem mem_of_mem_suggestions (h : other ∈ suggestions name available) : other ∈ available :=
  (suggestions_suggested name available).offered.subset h

/-- The suggestions are the one list that is right. -/
theorem suggestions_eq_iff :
    suggestions name available = result ↔ Suggested name available result := by
  constructor
  · rintro rfl
    exact suggestions_suggested name available
  · exact (suggestions_suggested name available).unique

/-- The order of the available names does not matter. -/
theorem suggestions_eq_of_perm {stock : List String} (h : available.Perm stock) :
    suggestions name available = suggestions name stock :=
  suggestions_eq_iff.2 ((suggestions_suggested name stock).perm h.symm)

end

end Phrasebook
