/-
  Phrasebook.Proofs.Context.Tier
  ────────────────────────────────
  **TIERS ARE ALWAYS BUILT.**

  Whatever is loaded can be defined, so no level of a chain fails for what is
  in its resources.  A chain has one level for each less preferred locale,
  and keeps them:

      fallbacks_getElem?  —  the settings of the levels below
      Tier.load_always    —  loading a tier gives one
      Level.atDepth_always, Chain.searchFrom_always
                          —  going down a chain keeps its settings
-/
import Phrasebook.Context.Lookup
import Phrasebook.Proofs.Load.Always

namespace Phrasebook

/-! ## §1. The settings of the levels below. -/

namespace Settings

theorem fallbacksWithin_getElem? (budget : Nat) :
    ∀ (s : Settings) (n : Nat), s.locales.length ≤ budget + 1 →
      (s.fallbacksWithin budget)[n]?
        = if n + 1 < s.locales.length then some { s with locales := s.locales.drop (n + 1) }
          else none := by
  induction budget with
  | zero =>
    intro s n hlen
    rw [fallbacksWithin, if_neg (by omega)]
    rfl
  | succ budget ih =>
    intro s n hlen
    obtain ⟨locales, schemes, loadTimeout⟩ := s
    -- fewer than two locales leave no level below
    match locales with
    | [] => rfl
    | [_] =>
      have hshort : ¬ n + 1 < 1 := by omega
      exact (if_neg hshort).symm
    | a :: l :: ls =>
      have hfallback : (⟨a :: l :: ls, schemes, loadTimeout⟩ : Settings).fallback
          = some ⟨l :: ls, schemes, loadTimeout⟩ := rfl
      rw [fallbacksWithin, hfallback]
      simp only [List.length_cons] at hlen ⊢
      cases n with
      | zero =>
        rw [if_pos (by omega)]
        rfl
      | succ n =>
        have hnext := ih ⟨l :: ls, schemes, loadTimeout⟩ n (by simpa using hlen)
        simp only [List.length_cons] at hnext
        rw [List.getElem?_cons_succ, hnext]
        by_cases hn : n + 1 < ls.length + 1
        · rw [if_pos hn, if_pos (by omega)]
          rfl
        · rw [if_neg hn, if_neg (by omega)]

/-- The settings of the levels below lack one locale more each. -/
theorem fallbacks_getElem? (s : Settings) (n : Nat) :
    s.fallbacks[n]? = if n + 1 < s.locales.length
      then some { s with locales := s.locales.drop (n + 1) } else none :=
  fallbacksWithin_getElem? _ s n (Nat.le_succ _)

end Settings

/-! ## §2. Tiers. -/

namespace Tier

variable (around : Surroundings) (settings : Settings) (uris : List String)

/-- The tier that loads come to if all of their entries can be defined. -/
def compiled (loads : List Loader.Loaded) : Tier where
  settings
  uris
  registry := (Registry.empty.addEntries (loadedEntries loads)).1
  globals := around.tierGlobals settings
  failures := loadFailures loads

variable {around settings uris}

theorem loadedEntries_holds {P : Entry → Prop} {loads : List Loader.Loaded}
    (h : ∀ l ∈ loads, Loader.Loaded.Holds P l) : ∀ e ∈ loadedEntries loads, P e := by
  intro e he
  obtain ⟨l, hl, hel⟩ := List.mem_flatMap.1 he
  cases l with
  | error failure => exact absurd hel List.not_mem_nil
  | ok entries => exact h _ hl entries rfl e hel

theorem ofLoads_eq {loads : List Loader.Loaded} (h : ∀ l ∈ loads, l.Definable) :
    ofLoads around settings uris loads = .ok (compiled around settings uris loads) := by
  obtain ⟨registry, hr⟩ := Registry.addEntries_of_definable (loadedEntries_holds h) Registry.empty
  unfold ofLoads compiled
  rw [hr]

/-- Loading a tier gives one, with its settings. -/
theorem load_always : (load around settings uris).Always fun r =>
    ∃ tier, r = .ok tier ∧ tier.settings = settings := by
  refine .bind (.forEach (Loader.load_definable _) uris) fun loads hloads => ?_
  rw [ofLoads_eq hloads]
  exact ⟨_, rfl, rfl⟩

end Tier

/-! ## §3. Levels. -/

/-- The settings of a level. -/
def Level.settings : Level → Settings
  | .planned s => s
  | .built tier => tier.settings

/-- The settings of a tier and the levels below it. -/
def Chain.settings (chain : Chain) : List Settings :=
  chain.tier.settings :: chain.below.map Level.settings

theorem Level.map_settings_below (s : Settings) :
    (Level.below s).map Level.settings = s.fallbacks := by
  unfold Level.below
  rw [List.map_map]
  exact List.map_id _

theorem Level.tier_always (around : Surroundings) (uris : List String) (level : Level) :
    (level.tier around uris).Always fun o =>
      ∃ tier, o = some tier ∧ tier.settings = level.settings := by
  cases level with
  | built tier => exact ⟨tier, rfl, rfl⟩
  | planned settings =>
    refine .bind Tier.load_always fun r hr => ?_
    obtain ⟨tier, rfl, htier⟩ := hr
    exact ⟨tier, rfl, htier⟩

section

variable {α : Type} {around : Surroundings}

/-- Going down to the `n`-th of levels with these settings keeps them, and
there is a result if there is such a level. -/
structure Level.Descent (kept : List Settings) (n : Nat) (Q : Settings → α → Prop)
    (r : List Level × Option α) : Prop where
  settings : r.1.map Level.settings = kept
  none : kept[n]? = none → r.2 = none
  some : ∀ s, kept[n]? = some s → ∃ a, r.2 = some a ∧ Q s a

theorem Level.atDepth_always (around : Surroundings) {act : Chain → Errand (Chain × α)}
    {Q : Settings → α → Prop} (hact : ∀ chain, (act chain).Always fun r =>
      r.1.settings = chain.settings ∧ Q chain.tier.settings r.2)
    (levels : List Level) : ∀ (n : Nat) (uris : List String),
      (Level.atDepth around act n uris levels).Always
        (Level.Descent (levels.map Level.settings) n Q) := by
  induction levels with
  | nil =>
    intro n uris
    have hdone : Level.Descent (α := α) [] n Q ([], none) := ⟨rfl, fun _ => rfl, nofun⟩
    cases n <;> exact hdone
  | cons level levels ih =>
    intro n uris
    rw [Level.atDepth]
    refine .bind (Level.tier_always around uris level) fun o ho => ?_
    obtain ⟨tier, rfl, htier⟩ := ho
    rw [List.map_cons, ← htier]
    cases n with
    | zero =>
      refine .bind (hact ⟨tier, levels⟩) fun r hr => ?_
      obtain ⟨hsettings, hq⟩ := hr
      have hthere : ∀ s, (tier.settings :: levels.map Level.settings)[0]? = some s →
          ∃ a, some r.2 = some a ∧ Q s a := by
        intro s hs
        obtain rfl := Option.some.inj hs
        exact ⟨r.2, rfl, hq⟩
      exact ⟨hsettings, nofun, hthere⟩
    | succ n =>
      -- further down, and then the level itself is put back
      refine .bind (ih n tier.uris) fun r hr => ?_
      have hkept : (Level.built tier :: r.1).map Level.settings
          = tier.settings :: levels.map Level.settings := by
        rw [List.map_cons, hr.settings]
        rfl
      exact ⟨hkept, hr.none, hr.some⟩

namespace Chain

variable {id : String} {tier : Tier}

theorem searchFrom_found {entity : Entity} (h : tier.publicEntity? id = some entity)
    (levels : List Level) :
    searchFrom around id tier levels = pure (.found entity tier, levels) := by
  rw [searchFrom.eq_def]
  simp only [h]

theorem searchFrom_last (h : tier.publicEntity? id = none) :
    searchFrom around id tier [] = pure (.missed tier, []) := by
  rw [searchFrom.eq_def]
  simp only [h]

/-- A search that misses in a tier goes on at the next level. -/
theorem searchFrom_next (h : tier.publicEntity? id = none) (level : Level)
    (levels : List Level) :
    searchFrom around id tier (level :: levels) = (do
      match ← level.tier around tier.uris with
      | none => pure (.missed tier, [])
      | some next => do
        let (finding, levels) ← searchFrom around id next levels
        pure (finding, .built next :: levels)) := by
  have hsearch := searchFrom.eq_def around id tier (level :: levels)
  simp only [h] at hsearch
  exact hsearch

theorem searchFrom_always (id : String) (levels : List Level) : ∀ tier : Tier,
    (searchFrom around id tier levels).Always fun r =>
      r.2.map Level.settings = levels.map Level.settings := by
  induction levels with
  | nil =>
    intro tier
    cases h : tier.publicEntity? id with
    | some entity =>
      rw [searchFrom_found h]
      rfl
    | none =>
      rw [searchFrom_last h]
      rfl
  | cons level levels ih =>
    intro tier
    cases h : tier.publicEntity? id with
    | some entity =>
      rw [searchFrom_found h]
      rfl
    | none =>
      rw [searchFrom_next h]
      refine .bind (Level.tier_always around tier.uris level) fun o ho => ?_
      obtain ⟨next, rfl, hnext⟩ := ho
      refine .bind (ih next) fun r hr => ?_
      show (Level.built next :: r.2).map Level.settings = _
      rw [List.map_cons, List.map_cons, hr, ← hnext]
      rfl

/-- A lookup keeps the settings of its chain. -/
theorem lookup_always (id : String) (question : Context.Question α) (chain : Chain) :
    (chain.lookup around id question).Always fun r => r.1.settings = chain.settings := by
  refine .bind (.bind (searchFrom_always id chain.below chain.tier) fun r hr => ?_)
    fun r (hr : r.1.settings = chain.settings) => hr
  show chain.tier.settings :: r.2.map Level.settings = _
  rw [hr]
  rfl

end Chain

end

end Phrasebook
