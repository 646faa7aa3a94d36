/-
  Phrasebook.Proofs.Grammar.Limit
  ────────────────────────────────
  **THE LIMIT OF NESTING.**

  No tree of a resource goes down by more than `maxNesting` levels, whichever
  way is taken; and the limit is one for each entry, since a counter of open
  levels is back where it was when an entry has been read or has failed:

      Yields.of_parse   —  what is read, strictly or with recovery
      Yields.descent_le —  its trees, and the ways down from them
      nesting_is_limited
                        —  both
-/
import Phrasebook.Proofs.Grammar.Counter
import Phrasebook.Proofs.Grammar.Descent

namespace Phrasebook

namespace Resource

/-- Every entry that is read, strictly or with recovery. -/
theorem Yields.of_parse {recover : Bool} {source : String} {out : Salvage} {entry : Entry}
    (h : parse recover source = .ok out) (hentry : entry ∈ out.entries) : Yields source entry := by
  unfold parse at h
  cases recover with
  | true =>
    obtain rfl := Except.ok.inj h
    exact .inr hentry
  | false =>
    cases hread : read source with
    | error x =>
      rw [hread] at h
      exact nomatch h
    | ok es =>
      rw [hread] at h
      obtain rfl := Except.ok.inj h
      exact .inl ⟨es, hread, hentry⟩

/-- At most one level is opened in front of a tree of an entry. -/
theorem opened_le {entry : Entry} {t : Nat × Expr} (ht : t ∈ entry.trees) : t.1 ≤ 1 := by
  have hmap : ∀ {α : Type} {f : α → Nat × Expr} {l : List α}, (∀ a, (f a).1 ≤ 1) →
      ∀ t ∈ l.map f, t.1 ≤ 1 := by
    intro α f l hf t ht
    obtain ⟨a, -, rfl⟩ := List.mem_map.1 ht
    exact hf a
  cases entry with
  | entity e =>
    rcases List.mem_append.1 ht with ht | ht
    · rcases List.mem_append.1 ht with ht | ht
      · exact hmap (fun _ => Nat.zero_le 1) t ht
      · exact hmap (fun _ => Nat.le_refl 1) t ht
    · exact hmap (fun _ => Nat.zero_le 1) t ht
  | macroDef m =>
    rcases List.mem_cons.1 ht with rfl | ht
    · exact Nat.le_refl 1
    · exact hmap (fun _ => Nat.zero_le 1) t ht
  | importing | comment | junk => exact absurd ht List.not_mem_nil

/-- A way down a tree of an entry, and what is opened in front of it. -/
theorem Yields.descent_le {source : String} {entry : Entry} (h : Yields source entry)
    {t : Nat × Expr} (ht : t ∈ entry.trees) {k : Nat} (hk : t.2.Descent k) :
    t.1 + k ≤ maxNesting := by
  have hle := (h.readIn.trees t ht).descent_le hk
  have hopened : t.1 ≤ maxNesting := Nat.le_trans (opened_le ht) (by decide)
  omega

/-- Whatever resource is read: on every way down the value, an expression of
the index, the body or an attribute of one of its entries, no more than
`maxNesting` levels are met.  Wherever the counter of open levels is, all of
the resource is read with it in just one way, every entry with the counter of
the first, and the counter ends there, also behind an error; from 0 on, just
what is read is read so. -/
theorem nesting_is_limited :
    (∀ recover source out, parse recover source = .ok out → ∀ entry ∈ out.entries,
        ∀ t ∈ entry.trees, ∀ k, t.2.Descent k → t.1 + k ≤ maxNesting)
      ∧ ∀ recover (source : String) d,
        ∃ counters result d',
          Rounds recover source.toList d (dropBlank source.toList) counters result d'
            ∧ d' = d ∧ (∀ c ∈ counters, c = d) ∧ (d = 0 → result = parse recover source)
            ∧ ∀ counters' result' d'',
              Rounds recover source.toList d (dropBlank source.toList) counters' result' d'' →
                counters' = counters ∧ result' = result ∧ d'' = d' := by
  refine ⟨fun recover source out hout entry hentry t ht k hk => ?_, fun recover source d => ?_⟩
  · exact (Yields.of_parse hout hentry).descent_le ht hk
  · obtain ⟨counters, result, d', h⟩ := exists_rounds recover source.toList
      (dropBlank source.toList) d
    obtain ⟨hd', hcounters⟩ := h.restores
    refine ⟨counters, result, d', h, hd', hcounters, fun hd => ?_, fun _ _ _ h' => h.unique h'⟩
    subst hd
    cases recover with
    | true => exact h.outcome_recover source.toList (List.dropWhile_suffix _).length_le
    | false =>
      have hentries : entries source.toList
          = Parser.collect nextEntry (dropBlank source.toList) := rfl
      rw [h.outcome_strict, ← hentries]
      unfold parse read
      cases entries source.toList <;> rfl

end Resource

end Phrasebook
