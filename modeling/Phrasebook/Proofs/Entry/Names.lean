/-
  Phrasebook.Proofs.Entry.Names
  ────────────────────────────────
  **THE NAMES THAT A REGISTRY OFFERS.**

  A reader labels an entity as local by its name, and the registry keeps
  entities under their own names.  So what a registry offers to callers can
  be told from the names alone, however often they have been defined anew:

      Registry.Labelled    —  the invariant, kept by every definition
      mem_publicIds        —  the names that are listed are those on offer
      publicIds_sorted, publicIds_nodup
                           —  in order, and each of them once
-/
import Phrasebook.Proofs.Entry.Definable
import Phrasebook.Proofs.Registry.Filled
import Phrasebook.Proofs.Text.Sorted

namespace Phrasebook

/-! ## §1. Lists of definitions. -/

namespace Registry

section

variable {id : String} {d : Definition} {ds : List (String × Definition)}

/-- Every name still has one definition at most. -/
theorem replace_nodup (h : (ds.map Prod.fst).Nodup) :
    ((replace id d ds).map Prod.fst).Nodup := by
  induction ds with
  | nil => exact List.pairwise_singleton _ id
  | cons head ds ih =>
    obtain ⟨k, e⟩ := head
    obtain ⟨hk, hds⟩ := List.nodup_cons.1 h
    rw [replace]
    split
    · next heq =>
      subst heq
      exact List.nodup_cons.2 ⟨hk, hds⟩
    · next hne =>
      refine List.nodup_cons.2 ⟨fun hmem => ?_, ih hds⟩
      obtain ⟨p, hp, hfst⟩ := List.mem_map.1 hmem
      rcases mem_replace hp with rfl | hp
      · exact hne hfst.symm
      · exact hk (List.mem_map.2 ⟨p, hp, hfst⟩)

theorem lookup_eq_some_iff (h : (ds.map Prod.fst).Nodup) :
    lookup id ds = some d ↔ (id, d) ∈ ds := by
  induction ds with
  | nil => exact iff_of_false nofun List.not_mem_nil
  | cons head ds ih =>
    obtain ⟨k, e⟩ := head
    obtain ⟨hk, hds⟩ := List.nodup_cons.1 h
    rw [lookup, List.mem_cons]
    -- the first definition is the only one of its name
    split
    · next heq =>
      subst heq
      have hnot : (k, d) ∉ ds := fun hmem => hk (List.mem_map.2 ⟨_, hmem, rfl⟩)
      constructor
      · intro hd
        exact .inl (by rw [Option.some.inj hd])
      · intro hd
        rw [(Prod.mk.inj (hd.resolve_right hnot)).2]
    · next hne =>
      rw [ih hds]
      refine ⟨.inr, fun hd => hd.resolve_left fun heq => ?_⟩
      exact hne (Prod.mk.inj heq).1.symm

end

end Registry

/-! ## §2. Labels. -/

/-- An entity is labelled as local by its name. -/
def Entry.Labelled : Entry → Prop
  | .entity e => e.isLocal = isLocalName e.id
  | _ => True

/-- An entity under its own name, and labelled by it. -/
def Definition.Labelled (id : String) : Definition → Prop
  | .entity e => e.it.id = id ∧ e.it.isLocal = isLocalName id
  | .macroDef _ => True

/-- Every name has one definition at most, which is labelled. -/
structure Registry.Labelled (r : Registry) : Prop where
  nodup : r.ids.Nodup
  labels : ∀ p ∈ r.definitions, p.2.Labelled p.1

theorem Resource.labelled_of_salvage (source : String) :
    ∀ e ∈ (salvage source).entries, e.Labelled := by
  intro e he
  rcases written_of_salvage source e he with h | ⟨content, rfl⟩
  · cases e with
    | entity e =>
      have hwritten : e.Written := h
      exact hwritten.isLocal
    | macroDef _ | importing _ | comment _ | junk _ => exact trivial
  · exact trivial

namespace Registry

variable {r : Registry}

theorem empty_labelled : empty.Labelled := ⟨.nil, fun _ hp => absurd hp List.not_mem_nil⟩

theorem define_labelled (h : r.Labelled) {id : String} {make : Nat → Definition}
    (hmake : ∀ stamp, (make stamp).Labelled id) : (r.define id make).Labelled where
  nodup := replace_nodup h.nodup
  labels := define_holds h.labels hmake

theorem addEntry_labelled (h : r.Labelled) {e : Entry} (he : e.Labelled) {next : Registry}
    (hnext : r.addEntry e = .ok next) : next.Labelled := by
  rcases addEntry_cases hnext with ⟨x, rfl, rfl⟩ | ⟨m, rfl, rfl⟩ | ⟨-, rfl⟩
  · exact define_labelled h fun stamp => ⟨rfl, he⟩
  · exact define_labelled h fun stamp => trivial
  · exact h

/-- Labelled entries make a labelled registry. -/
theorem addEntries_labelled {entries : List Entry} (hentries : ∀ e ∈ entries, e.Labelled) :
    (empty.addEntries entries).1.Labelled := by
  rw [addEntries_fst]
  exact compile_keeps (fun e he _ _ h hnext => addEntry_labelled h (hentries e he) hnext)
    empty_labelled

/-! ## §3. Names on offer. -/

/-- Callers may ask for the name: it is not local, and it is an entity. -/
def Offers (r : Registry) (id : String) : Prop :=
  isLocalName id = false ∧ ∃ e, r.findEntity? id = some e

theorem findEntity?_eq_some_iff (h : r.Labelled) {id : String} {e : Stamped Entity} :
    r.findEntity? id = some e ↔ (id, .entity e) ∈ r.definitions := by
  rw [← lookup_eq_some_iff h.nodup]
  unfold findEntity? find?
  cases hd : lookup id r.definitions with
  | none => exact iff_of_false nofun nofun
  | some d =>
    cases d with
    | entity e' => exact ⟨fun he => by rw [Option.some.inj he], fun he => by
        rw [Definition.entity.inj (Option.some.inj he)]⟩
    | macroDef m => exact iff_of_false nofun nofun

theorem labels_of_findEntity? (h : r.Labelled) {id : String} {e : Stamped Entity}
    (he : r.findEntity? id = some e) : e.it.id = id ∧ e.it.isLocal = isLocalName id :=
  h.labels _ ((findEntity?_eq_some_iff h).1 he)

/-- The name that a definition has for callers. -/
def publicName? : String × Definition → Option String
  | (id, .entity e) => if e.it.isLocal then none else some id
  | (_, .macroDef _) => none

theorem publicIds_eq (r : Registry) :
    r.publicIds = sortTexts (r.definitions.filterMap publicName?) :=
  rfl

theorem filterMap_publicName?_sublist (ds : List (String × Definition)) :
    (ds.filterMap publicName?).Sublist (ds.map Prod.fst) := by
  induction ds with
  | nil => exact .slnil
  | cons p ds ih =>
    obtain ⟨id, d⟩ := p
    rw [List.filterMap_cons, List.map_cons]
    cases hname : publicName? (id, d) with
    | none => exact ih.cons id
    | some name =>
      have hsame : name = id := by
        unfold publicName? at hname
        split at hname
        · next hp =>
          split at hname
          · exact nomatch hname
          · rw [← Option.some.inj hname, (Prod.mk.inj hp).1]
        · exact nomatch hname
      subst hsame
      exact ih.cons_cons name

/-- The names are listed in order. -/
theorem publicIds_sorted (h : r.Labelled) : r.publicIds.Pairwise fun a b => a < b := by
  rw [publicIds_eq]
  exact sortTexts_pairwise ((filterMap_publicName?_sublist _).nodup h.nodup)

/-- Each of them is listed once. -/
theorem publicIds_nodup (h : r.Labelled) : r.publicIds.Nodup := by
  refine List.Pairwise.imp ?_ (publicIds_sorted h)
  rintro a _ hlt rfl
  exact String.lt_irrefl a hlt

/-- The names that are listed are those on offer. -/
theorem mem_publicIds (h : r.Labelled) {id : String} : id ∈ r.publicIds ↔ r.Offers id := by
  rw [publicIds_eq, sortTexts, mem_sortBy, List.mem_filterMap]
  constructor
  · rintro ⟨⟨k, d⟩, hmem, hname⟩
    unfold publicName? at hname
    split at hname
    · next k' e hp =>
      obtain ⟨rfl, rfl⟩ := Prod.mk.inj hp
      split at hname
      · exact nomatch hname
      · next hpublic =>
        obtain rfl := Option.some.inj hname
        have hlabel := (h.labels _ hmem).2
        refine ⟨?_, e, (findEntity?_eq_some_iff h).2 hmem⟩
        rw [← hlabel]
        exact Bool.eq_false_iff.2 hpublic
    · exact nomatch hname
  · rintro ⟨hpublic, e, he⟩
    refine ⟨(id, .entity e), (findEntity?_eq_some_iff h).1 he, ?_⟩
    have hlabel := (labels_of_findEntity? h he).2
    show (if e.it.isLocal then none else some id) = some id
    rw [hlabel, hpublic]
    rfl

end Registry

end Phrasebook
