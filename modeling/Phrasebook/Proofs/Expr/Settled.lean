/-
  Phrasebook.Proofs.Expr.Settled
  ────────────────────────────────
  **WHAT REMAINS OF A LIST OF ITEMS.**

  A hash, and a list of attributes, keeps one item for each key.  The item is
  the last one that was written with the key; it stands where the key was
  written first.  Both can be said of the list as written:

      Standing          —  an item whose key is not written again
      mem_settle_iff    —  these remain
      firstAt           —  where a key is written first
      firstAt_settle_lt_iff
                        —  they remain in the order of that
      starredKey_settle —  the default of a hash: of the starred items that
                           remain, the one whose key is written first last
      lastStanding      —  the last starred item that remains
      starredKey_settle_eq_iff
                        —  when it is the default
-/
import Mathlib.Data.List.Induction
import Mathlib.Data.List.Nodup
import Phrasebook.Proofs.Expr.Written

namespace Phrasebook

/-- The last element of a list that passes a test. -/
theorem getLast?_filter_eq_some_iff {α : Type} {p : α → Bool} {l : List α} {a : α} :
    (l.filter p).getLast? = some a
      ↔ p a = true ∧ ∃ before after, l = before ++ a :: after ∧ ∀ b ∈ after, p b = false := by
  rw [List.getLast?_eq_head?_reverse, ← List.filter_reverse, List.head?_filter,
    List.find?_eq_some_iff_append]
  refine and_congr_right fun _ => ⟨?_, ?_⟩
  · rintro ⟨after, before, hl, hafter⟩
    refine ⟨before.reverse, after.reverse, ?_, fun b hb => ?_⟩
    · rw [← List.reverse_reverse l, hl]
      simp
    · simpa using hafter b (List.mem_reverse.1 hb)
  · rintro ⟨before, after, rfl, hafter⟩
    refine ⟨after.reverse, before.reverse, by simp, fun b hb => ?_⟩
    simpa using hafter b (List.mem_reverse.1 hb)

namespace Field

variable {α : Type} {f g : Field α} {written kept : List (Field α)} {j k : String}

/-! ## §1. The keys that remain. -/

/-- The keys of items, in their order. -/
def keys (items : List (Field α)) : List String :=
  items.map key

@[simp] theorem keys_cons : keys (f :: written) = f.key :: keys written := rfl

@[simp] theorem keys_append (written later : List (Field α)) :
    keys (written ++ later) = keys written ++ keys later :=
  List.map_append

theorem key_mem_keys (h : f ∈ written) : f.key ∈ keys written :=
  List.mem_map_of_mem h

theorem settle_append_singleton (written : List (Field α)) (f : Field α) :
    settle (written ++ [f]) = place f (settle written) := by
  unfold settle
  rw [List.foldl_append]
  rfl

/-- An item is put in the place of its key, or at the end. -/
theorem keys_place (f : Field α) (kept : List (Field α)) :
    keys (place f kept) = if f.key ∈ keys kept then keys kept else keys kept ++ [f.key] := by
  induction kept with
  | nil => rfl
  | cons g kept ih =>
    unfold place
    by_cases hkey : g.key = f.key
    · rw [if_pos hkey, keys_cons, keys_cons, hkey, if_pos List.mem_cons_self]
    · rw [if_neg hkey, keys_cons, ih, keys_cons]
      simp only [List.mem_cons, Ne.symm hkey, false_or]
      split <;> rfl

-- here and below by induction from the end: what is written last is placed last
theorem mem_keys_settle : k ∈ keys (settle written) ↔ k ∈ keys written := by
  induction written using List.reverseRecOn with
  | nil => exact Iff.rfl
  | append_singleton written f ih =>
    rw [settle_append_singleton, keys_place, keys_append, List.mem_append, ← ih]
    by_cases hf : f.key ∈ keys (settle written)
    · rw [if_pos hf]
      refine ⟨.inl, fun h => h.elim id fun h => ?_⟩
      rw [List.mem_singleton.1 h]
      exact hf
    · rw [if_neg hf, List.mem_append]
      rfl

/-- Every key remains once. -/
theorem nodup_keys_settle (written : List (Field α)) : (keys (settle written)).Nodup := by
  induction written using List.reverseRecOn with
  | nil => exact List.nodup_nil
  | append_singleton written f ih =>
    rw [settle_append_singleton, keys_place]
    by_cases hf : f.key ∈ keys (settle written)
    · rw [if_pos hf]
      exact ih
    · rw [if_neg hf, List.nodup_append]
      refine ⟨ih, List.nodup_singleton _, fun a ha b hb => ?_⟩
      rw [List.mem_singleton.1 hb]
      exact fun h => hf (h ▸ ha)

/-- Where no key comes twice, an item is found by its key. -/
theorem find?_key_of_mem (hnodup : (keys kept).Nodup) (hf : f ∈ kept) :
    (kept.find? fun g => g.key == f.key) = some f := by
  induction kept with
  | nil => exact absurd hf List.not_mem_nil
  | cons g kept ih =>
    rw [keys_cons, List.nodup_cons] at hnodup
    rcases List.mem_cons.1 hf with rfl | hf
    · exact List.find?_cons_of_pos (beq_self_eq_true f.key)
    · have hkey : g.key ≠ f.key := fun h => hnodup.1 (h ▸ key_mem_keys hf)
      rw [List.find?_cons_of_neg (by simpa using hkey)]
      exact ih hnodup.2 hf

/-! ## §2. The order in which they remain. -/

/-- The position at which a key is written first. -/
def firstAt (written : List (Field α)) (k : String) : Nat :=
  (keys written).idxOf k

theorem firstAt_inj (h : j ∈ keys written) : firstAt written j = firstAt written k ↔ j = k :=
  List.idxOf_inj h

theorem firstAt_append_singleton (written : List (Field α)) (f : Field α) (k : String) :
    firstAt (written ++ [f]) k
      = if k ∈ keys written then firstAt written k
        else written.length + if k = f.key then 0 else 1 := by
  unfold firstAt
  rw [keys_append, List.idxOf_append]
  split
  · rfl
  · rw [keys, keys, List.length_map, Nat.add_comm]
    congr 1
    by_cases hk : k = f.key
    · rw [if_pos hk, List.map_singleton, hk, List.idxOf_cons_self]
    · rw [if_neg hk, List.map_singleton, List.idxOf_cons_ne _ (Ne.symm hk), List.idxOf_nil]

theorem firstAt_lt_length_iff : firstAt written k < written.length ↔ k ∈ keys written := by
  unfold firstAt
  rw [← List.idxOf_lt_length_iff, keys, List.length_map]

theorem firstAt_le_length (written : List (Field α)) (k : String) :
    firstAt written k ≤ written.length := by
  have hlength : (keys written).length = written.length := List.length_map key
  rw [← hlength]
  exact List.idxOf_le_length

/-- One item more puts its key, if it is new, before the keys that are not
written. -/
theorem firstAt_append_singleton_lt_iff (written : List (Field α)) (f : Field α) :
    firstAt (written ++ [f]) j < firstAt (written ++ [f]) k
      ↔ firstAt written j < firstAt written k
        ∨ j ∉ keys written ∧ k ∉ keys written ∧ j = f.key ∧ k ≠ f.key := by
  have hj : firstAt written j < written.length ↔ j ∈ keys written := firstAt_lt_length_iff
  have hk : firstAt written k < written.length ↔ k ∈ keys written := firstAt_lt_length_iff
  have hjle := firstAt_le_length written j
  have hkle := firstAt_le_length written k
  rw [firstAt_append_singleton, firstAt_append_singleton]
  by_cases hjmem : j ∈ keys written <;> by_cases hkmem : k ∈ keys written
  · simp only [hjmem, hkmem, if_true, not_true_eq_false, false_and, or_false]
  · -- what is written comes before what is not
    simp only [hjmem, hkmem, if_true, if_false, not_true_eq_false, false_and, or_false]
    have := hj.2 hjmem
    have := mt hk.1 hkmem
    omega
  · simp only [hjmem, hkmem, if_true, if_false, not_true_eq_false, false_and, and_false, or_false]
    have := hk.2 hkmem
    have := mt hj.1 hjmem
    omega
  · have hjlast : firstAt written j = written.length := by
      have := mt hj.1 hjmem
      omega
    have hklast : firstAt written k = written.length := by
      have := mt hk.1 hkmem
      omega
    simp only [hjmem, hkmem, if_false, not_false_eq_true, true_and, hjlast, hklast]
    by_cases hjf : j = f.key <;> by_cases hkf : k = f.key <;> simp [hjf, hkf]

theorem firstAt_place (f : Field α) (kept : List (Field α)) (k : String) :
    firstAt (place f kept) k
      = if f.key ∈ keys kept then firstAt kept k else firstAt (kept ++ [f]) k := by
  unfold firstAt
  rw [keys_place, keys_append]
  split <;> rfl

/-- Keys remain in the order in which they were written first. -/
theorem firstAt_settle_lt_iff :
    firstAt (settle written) j < firstAt (settle written) k
      ↔ firstAt written j < firstAt written k := by
  induction written using List.reverseRecOn with
  | nil => exact Iff.rfl
  | append_singleton written f ih =>
    rw [settle_append_singleton, firstAt_place, firstAt_place,
      firstAt_append_singleton_lt_iff written, ← ih]
    by_cases hf : f.key ∈ keys (settle written)
    · -- the item takes the place of another one
      rw [if_pos hf, if_pos hf]
      refine ⟨.inl, fun h => h.resolve_right fun ⟨hj, _, hjf, _⟩ => hj ?_⟩
      rw [hjf]
      exact mem_keys_settle.1 hf
    · rw [if_neg hf, if_neg hf, firstAt_append_singleton_lt_iff, mem_keys_settle, mem_keys_settle]

theorem firstAt_settle_le_iff :
    firstAt (settle written) j ≤ firstAt (settle written) k
      ↔ firstAt written j ≤ firstAt written k := by
  rw [← Nat.not_lt, ← Nat.not_lt, firstAt_settle_lt_iff]

/-! ## §3. The items that remain. -/

/-- The item has been written, and no later one has its key. -/
def Standing (written : List (Field α)) (f : Field α) : Prop :=
  ∃ before after, written = before ++ f :: after ∧ ∀ g ∈ after, g.key ≠ f.key

theorem Standing.mem (h : Standing written f) : f ∈ written := by
  obtain ⟨before, after, rfl, -⟩ := h
  exact List.mem_append_right _ List.mem_cons_self

/-- One item more stands, and takes the place of the one with its key. -/
theorem standing_append_singleton_iff :
    Standing (written ++ [f]) g ↔ g = f ∨ Standing written g ∧ g.key ≠ f.key := by
  constructor
  · rintro ⟨before, after, heq, hafter⟩
    rcases List.eq_nil_or_concat after with rfl | ⟨middle, last, rfl⟩
    · obtain ⟨-, hlast⟩ := List.append_inj' heq rfl
      exact .inl (List.cons.inj hlast).1.symm
    · rw [List.concat_eq_append, ← List.cons_append, ← List.append_assoc] at heq
      obtain ⟨rfl, hlast⟩ := List.append_inj' heq rfl
      obtain rfl := (List.cons.inj hlast).1
      refine .inr ⟨⟨before, middle, rfl, fun g' hg' => hafter g' ?_⟩, fun h => ?_⟩
      · rw [List.concat_eq_append]
        exact List.mem_append_left _ hg'
      · exact hafter f (by simp) h.symm
  · rintro (rfl | ⟨⟨before, after, rfl, hafter⟩, hkey⟩)
    · exact ⟨written, [], rfl, fun _ h => absurd h List.not_mem_nil⟩
    · refine ⟨before, after ++ [f], by simp, fun g' hg' => ?_⟩
      rcases List.mem_append.1 hg' with hg' | hg'
      · exact hafter g' hg'
      · rw [List.mem_singleton.1 hg']
        exact hkey.symm

theorem mem_place_iff (hnodup : (keys kept).Nodup) :
    g ∈ place f kept ↔ g = f ∨ g ∈ kept ∧ g.key ≠ f.key := by
  induction kept with
  | nil => simp [place]
  | cons x kept ih =>
    rw [keys_cons, List.nodup_cons] at hnodup
    unfold place
    by_cases hkey : x.key = f.key
    · -- no other item has the key
      rw [if_pos hkey, List.mem_cons, List.mem_cons]
      refine or_congr_right ⟨fun hg => ⟨.inr hg, fun hgf => ?_⟩, fun ⟨hg, hgf⟩ => ?_⟩
      · exact hnodup.1 ((hkey.trans hgf.symm) ▸ key_mem_keys hg)
      · exact hg.resolve_left fun h => hgf (h ▸ hkey)
    · rw [if_neg hkey, List.mem_cons, List.mem_cons, ih hnodup.2]
      constructor
      · rintro (rfl | rfl | ⟨hg, hgf⟩)
        · exact .inr ⟨.inl rfl, hkey⟩
        · exact .inl rfl
        · exact .inr ⟨.inr hg, hgf⟩
      · rintro (rfl | ⟨rfl | hg, hgf⟩)
        · exact .inr (.inl rfl)
        · exact .inl rfl
        · exact .inr (.inr ⟨hg, hgf⟩)

/-- The items that remain are those that no later one replaces. -/
theorem mem_settle_iff : g ∈ settle written ↔ Standing written g := by
  induction written using List.reverseRecOn with
  | nil =>
    refine iff_of_false List.not_mem_nil fun h => ?_
    exact absurd h.mem List.not_mem_nil
  | append_singleton written f ih =>
    rw [settle_append_singleton, mem_place_iff (nodup_keys_settle written), ih,
      standing_append_singleton_iff]

/-- Without a key that is written twice, all items remain as they are. -/
theorem settle_of_nodup (hnodup : (keys written).Nodup) : settle written = written := by
  induction written using List.reverseRecOn with
  | nil => rfl
  | append_singleton written f ih =>
    rw [keys_append, List.nodup_append] at hnodup
    obtain ⟨hwritten, -, hdisjoint⟩ := hnodup
    have hnew : ∀ g ∈ written, g.key ≠ f.key := fun g hg =>
      hdisjoint g.key (key_mem_keys hg) f.key List.mem_cons_self
    rw [settle_append_singleton, ih hwritten]
    clear ih hwritten hdisjoint
    induction written with
    | nil => rfl
    | cons g written ih =>
      rw [List.cons_append, place, if_neg (hnew g List.mem_cons_self),
        ih fun x hx => hnew x (List.mem_cons_of_mem _ hx)]

/-! ## §4. The default. -/

/-- Of the starred items, the default is the one that comes last. -/
theorem starredKey_eq_some_iff {items : List (Field Expr)} (hnodup : (keys items).Nodup) :
    starredKey items = some k
      ↔ ∃ f ∈ items, f.starred = true ∧ f.key = k
        ∧ ∀ g ∈ items, g.starred = true → firstAt items g.key ≤ firstAt items k := by
  have hlast : ∀ {k}, starredKey items = some k → ∃ f ∈ items, f.starred = true ∧ f.key = k
      ∧ ∀ g ∈ items, g.starred = true → firstAt items g.key ≤ firstAt items k := by
    intro k h
    obtain ⟨f, hf, rfl⟩ := Option.map_eq_some_iff.1 h
    obtain ⟨hstar, before, after, rfl, hafter⟩ := getLast?_filter_eq_some_iff.1 hf
    have hmem : f ∈ before ++ f :: after := List.mem_append_right _ List.mem_cons_self
    refine ⟨f, hmem, hstar, rfl, fun g hg hgstar => ?_⟩
    -- the last starred item stands right behind the keys before it, and no starred one later
    have hbefore : f.key ∉ keys before := by
      rw [keys_append, List.nodup_append] at hnodup
      exact fun h => hnodup.2.2 _ h f.key List.mem_cons_self rfl
    have hposition : firstAt (before ++ f :: after) f.key = before.length := by
      unfold firstAt
      rw [keys_append, List.idxOf_append, if_neg hbefore, keys_cons, List.idxOf_cons_self,
        Nat.zero_add, keys, List.length_map]
    rw [hposition]
    rcases List.mem_append.1 hg with hg | hg
    · have hgkey := key_mem_keys hg
      unfold firstAt
      rw [keys_append, List.idxOf_append, if_pos hgkey]
      exact firstAt_le_length before g.key
    · rcases List.mem_cons.1 hg with rfl | hg
      · exact Nat.le_of_eq hposition
      · exact absurd hgstar (by simp [hafter g hg])
  refine ⟨hlast, fun ⟨f, hf, hstar, hkey, hgreatest⟩ => ?_⟩
  -- some item is the default, and comes neither before nor after this one
  cases hdefault : starredKey items with
  | none =>
    have hnone := Option.map_eq_none_iff.1 hdefault
    rw [List.getLast?_eq_none_iff, List.filter_eq_nil_iff] at hnone
    exact absurd hstar (hnone f hf)
  | some k' =>
    obtain ⟨f', hf', hstar', hkey', hgreatest'⟩ := hlast hdefault
    have hle := hgreatest f' hf' hstar'
    have hle' := hgreatest' f hf hstar
    rw [hkey'] at hle
    rw [hkey] at hle'
    have hk' : k' ∈ keys items := hkey' ▸ key_mem_keys hf'
    exact congrArg some ((firstAt_inj hk').1 (Nat.le_antisymm hle hle'))

/-- The item is starred and stands. -/
def StarStanding (written : List (Field α)) (f : Field α) : Prop :=
  Standing written f ∧ f.starred = true

/-- The default of what remains: of the starred items that stand, the one
whose key is written first after the keys of the others. -/
theorem starredKey_settle_eq_some_iff {written : List (Field Expr)} :
    starredKey (settle written) = some k
      ↔ ∃ f, StarStanding written f ∧ f.key = k
        ∧ ∀ g, StarStanding written g → firstAt written g.key ≤ firstAt written k := by
  rw [starredKey_eq_some_iff (nodup_keys_settle written)]
  simp only [mem_settle_iff, firstAt_settle_le_iff, StarStanding, and_assoc, and_imp]

theorem starredKey_settle_eq_none_iff {written : List (Field Expr)} :
    starredKey (settle written) = none ↔ ∀ f, ¬ StarStanding written f := by
  unfold starredKey StarStanding
  rw [Option.map_eq_none_iff, List.getLast?_eq_none_iff, List.filter_eq_nil_iff]
  simp only [mem_settle_iff, not_and]

/-- The last of the starred items that stand. -/
def lastStanding : List (Field α) → Option (Field α)
  | [] => none
  | f :: later =>
    (lastStanding later).or
      (if f.starred = true ∧ ∀ g ∈ later, g.key ≠ f.key then some f else none)

theorem standing_cons_iff {later : List (Field α)} :
    Standing (f :: later) g ↔ Standing later g ∨ g = f ∧ ∀ x ∈ later, x.key ≠ f.key := by
  constructor
  · rintro ⟨before, after, heq, hafter⟩
    cases before with
    | nil =>
      obtain ⟨rfl, rfl⟩ := List.cons.inj heq
      exact .inr ⟨rfl, hafter⟩
    | cons x before => exact .inl ⟨before, after, (List.cons.inj heq).2, hafter⟩
  · rintro (⟨before, after, rfl, hafter⟩ | ⟨rfl, hlater⟩)
    · exact ⟨f :: before, after, rfl, hafter⟩
    · exact ⟨[], later, rfl, hlater⟩

theorem lastStanding_eq_none_iff : lastStanding written = none ↔ ∀ f, ¬ StarStanding written f := by
  induction written with
  | nil => exact iff_of_true rfl fun f hf => absurd hf.1.mem List.not_mem_nil
  | cons x later ih =>
    unfold lastStanding
    rw [Option.or_eq_none_iff, ih]
    constructor
    · rintro ⟨hlater, hx⟩ f ⟨hf, hstar⟩
      rcases standing_cons_iff.1 hf with hf | ⟨rfl, hkeys⟩
      · exact hlater f ⟨hf, hstar⟩
      · rw [if_pos ⟨hstar, hkeys⟩] at hx
        exact nomatch hx
    · intro h
      refine ⟨fun f hf => h f ⟨standing_cons_iff.2 (.inl hf.1), hf.2⟩, if_neg ?_⟩
      exact fun ⟨hstar, hkeys⟩ => h x ⟨standing_cons_iff.2 (.inr ⟨rfl, hkeys⟩), hstar⟩

theorem starStanding_lastStanding (h : lastStanding written = some f) :
    StarStanding written f := by
  induction written with
  | nil => exact nomatch h
  | cons x later ih =>
    unfold lastStanding at h
    rcases Option.or_eq_some_iff.1 h with h | ⟨-, h⟩
    · exact ⟨standing_cons_iff.2 (.inl (ih h).1), (ih h).2⟩
    · split at h
      · next hx =>
        obtain rfl := Option.some.inj h
        exact ⟨standing_cons_iff.2 (.inr ⟨rfl, hx.2⟩), hx.1⟩
      · exact nomatch h

/-- The default is the last starred item that stands, just if no other such
item has a key that is written first after its own. -/
theorem starredKey_settle_eq_lastStanding_iff {written : List (Field Expr)} :
    starredKey (settle written) = (lastStanding written).map key
      ↔ ∀ f, lastStanding written = some f →
        ∀ g, StarStanding written g → firstAt written g.key ≤ firstAt written f.key := by
  cases hlast : lastStanding written with
  | none =>
    refine iff_of_true ?_ nofun
    exact starredKey_settle_eq_none_iff.2 (lastStanding_eq_none_iff.1 hlast)
  | some f =>
    have hf := starStanding_lastStanding hlast
    rw [Option.map_some, starredKey_settle_eq_some_iff]
    constructor
    · rintro ⟨f', -, -, hgreatest⟩ f'' hf''
      obtain rfl := Option.some.inj hf''
      exact hgreatest
    · exact fun h => ⟨f, hf, rfl, h f rfl⟩

/-- Without a key that is written twice, the default is the last starred
item. -/
theorem lastStanding_of_nodup (hnodup : (keys written).Nodup) :
    lastStanding written = (written.filter starred).getLast? := by
  induction written with
  | nil => rfl
  | cons x later ih =>
    rw [keys_cons, List.nodup_cons] at hnodup
    have hkeys : ∀ g ∈ later, g.key ≠ x.key := fun g hg h => hnodup.1 (h ▸ key_mem_keys hg)
    unfold lastStanding
    rw [ih hnodup.2, List.filter_cons]
    by_cases hstar : x.starred = true
    · rw [if_pos ⟨hstar, hkeys⟩, if_pos hstar, List.getLast?_cons]
      cases (later.filter starred).getLast? <;> rfl
    · rw [if_neg fun h => hstar h.1, if_neg hstar, Option.or_none]

end Field

end Phrasebook
