/-
  Phrasebook.Proofs.Context.Carry
  ────────────────────────────────
  **WHAT EVERY TIER HAS.**

  All that a context ever compiles has been read from some text.  So what the
  readers give to every entry, and what a tier gets from such entries, every
  tier of a context has after every history:

      Imparts        —  entries that are read have the one, tiers the other
      Carries        —  the invariant
      step_carries   —  every step keeps it
      after_carries, tiersFrom_carries
                     —  so the tiers have it that a context stands for
-/
import Phrasebook.Proofs.Context.View

namespace Phrasebook

/-! ## §1. Tiers. -/

/-- Every entry that is read has the one property, and every tier with such
entries the other. -/
structure Imparts (P : Entry → Prop) (T : Tier → Prop) : Prop where
  entries : ∀ source, ∀ e ∈ (Resource.salvage source).entries, P e
  tiers : ∀ {around settings uris loads tier}, (∀ l ∈ loads, Loader.Loaded.Holds P l) →
    Tier.ofLoads around settings uris loads = .ok tier → T tier

section

variable {P : Entry → Prop} {T : Tier → Prop} (imparts : Imparts P T)

include imparts

theorem Tier.load_carries (around : Surroundings) (settings : Settings) (uris : List String) :
    (Tier.load around settings uris).Always fun r => ∀ tier, r = .ok tier → T tier := by
  refine .bind (.forEach (Loader.load_holds imparts.entries _) uris) fun loads hloads => ?_
  cases htier : Tier.ofLoads around settings uris loads with
  | error e => exact fun tier h => nomatch h
  | ok tier =>
    intro other h
    obtain rfl := Except.ok.inj h
    exact imparts.tiers hloads htier

/-! ## §2. Levels. -/

theorem Level.tier_carries (around : Surroundings) (uris : List String) {level : Level}
    (h : ∀ tier, level = .built tier → T tier) :
    (level.tier around uris).Always fun o => ∀ tier, o = some tier → T tier := by
  cases level with
  | built tier =>
    intro other hother
    obtain rfl := Option.some.inj hother
    exact h tier rfl
  | planned settings =>
    refine .bind (Tier.load_carries imparts around settings uris) fun r hr => ?_
    intro tier htier
    cases r with
    | error e => exact nomatch htier
    | ok loaded =>
      obtain rfl := Option.some.inj htier
      exact hr loaded rfl

/-- What the levels stand for. -/
theorem Level.tiers_carries (answers : String → Reading) (around : Surroundings)
    {levels : List Level} (h : ∀ tier, .built tier ∈ levels → T tier) (uris : List String) :
    ∀ tier ∈ Level.tiers answers around uris levels, T tier := by
  induction levels generalizing uris with
  | nil => exact fun tier htier => absurd htier List.not_mem_nil
  | cons level levels ih =>
    have hfirst := (Level.tier_carries imparts around uris
      fun tier hlevel => h tier (hlevel ▸ List.mem_cons_self)).run answers
    rw [Level.tiers]
    cases hrun : ((level.tier around uris).run answers).1 with
    | none => exact fun tier htier => absurd htier List.not_mem_nil
    | some first =>
      intro tier htier
      rcases List.mem_cons.1 htier with rfl | htier
      · exact hfirst tier hrun
      · exact ih (fun tier hmem => h tier (List.mem_cons_of_mem _ hmem)) first.uris tier htier

end

/-- The tier of a chain has the property, and so have those that are built
below it. -/
structure Chain.Carries (T : Tier → Prop) (chain : Chain) : Prop where
  tier : T chain.tier
  below : ∀ tier, .built tier ∈ chain.below → T tier

/-- One more level is built. -/
theorem built_cons {T : Tier → Prop} {first : Tier} {levels : List Level} (hfirst : T first)
    (h : ∀ tier, .built tier ∈ levels → T tier) :
    ∀ tier, .built tier ∈ .built first :: levels → T tier := by
  intro tier htier
  rcases List.mem_cons.1 htier with heq | htier
  · exact Level.built.inj heq ▸ hfirst
  · exact h tier htier

section

variable {P : Entry → Prop} {T : Tier → Prop} (imparts : Imparts P T) {α : Type}
  {around : Surroundings}

include imparts

theorem Level.atDepth_carries {act : Chain → Errand (Chain × α)}
    (hact : ∀ chain, chain.Carries T → (act chain).Always fun r => r.1.Carries T)
    {levels : List Level} (h : ∀ tier, .built tier ∈ levels → T tier) :
    ∀ n uris, (Level.atDepth around act n uris levels).Always fun r =>
      ∀ tier, .built tier ∈ r.1 → T tier := by
  induction levels with
  | nil =>
    intro n uris
    cases n <;> exact fun tier htier => absurd htier List.not_mem_nil
  | cons level levels ih =>
    have hlater : ∀ tier, .built tier ∈ levels → T tier :=
      fun tier hmem => h tier (List.mem_cons_of_mem _ hmem)
    intro n uris
    rw [Level.atDepth]
    refine .bind (Level.tier_carries imparts around uris
      fun tier hlevel => h tier (hlevel ▸ List.mem_cons_self)) fun o ho => ?_
    cases o with
    | none => exact fun tier htier => absurd htier List.not_mem_nil
    | some first =>
      -- the tier has the property, built now or before, and so does all that is built below
      have hfirst := ho first rfl
      cases n with
      | zero =>
        refine .bind (hact ⟨first, levels⟩ ⟨hfirst, hlater⟩) fun r hr => ?_
        exact built_cons hr.tier hr.below
      | succ n =>
        refine .bind (ih hlater n first.uris) fun r hr => ?_
        exact built_cons hfirst hr

theorem Chain.searchFrom_carries (id : String) (levels : List Level) : ∀ first : Tier, T first →
    (∀ tier, .built tier ∈ levels → T tier) →
    (Chain.searchFrom around id first levels).Always fun r =>
      ∀ tier, .built tier ∈ r.2 → T tier := by
  induction levels with
  | nil =>
    intro first hfirst h
    cases hid : first.publicEntity? id with
    | some e =>
      rw [Chain.searchFrom_found hid]
      exact h
    | none =>
      rw [Chain.searchFrom_last hid]
      exact h
  | cons level levels ih =>
    intro first hfirst h
    cases hid : first.publicEntity? id with
    | some e =>
      rw [Chain.searchFrom_found hid]
      exact h
    | none =>
      rw [Chain.searchFrom_next hid]
      refine .bind (Level.tier_carries imparts around first.uris
        fun tier hlevel => h tier (hlevel ▸ List.mem_cons_self)) fun o ho => ?_
      cases o with
      | none => exact fun tier htier => absurd htier List.not_mem_nil
      | some next =>
        have hnext := ho next rfl
        refine .bind (ih next hnext fun tier hmem => h tier (List.mem_cons_of_mem _ hmem))
          fun r hr => ?_
        exact built_cons hnext hr

theorem Chain.lookup_carries (id : String) (question : Context.Question α) {chain : Chain}
    (h : chain.Carries T) :
    (chain.lookup around id question).Always fun r => r.1.Carries T := by
  refine .bind (P := fun r => r.1.Carries T) ?_ fun r hr => hr
  exact .bind (Chain.searchFrom_carries imparts id chain.below chain.tier h.tier h.below)
    fun r hr => ⟨h.tier, hr⟩

end

namespace Context

/-! ## §3. The invariant. -/

/-- What came of the loads has the one property, and every tier that is there
the other. -/
structure Carries (P : Entry → Prop) (T : Tier → Prop) (c : Context) : Prop where
  results : ∀ resources, c.stage = .collecting resources →
    ∀ r ∈ resources, ∀ l ∈ r.result, Loader.Loaded.Holds P l
  tier : ∀ tier, c.stage = .frozen tier → T tier
  below : ∀ tier, .built tier ∈ c.below → T tier

section

variable {P : Entry → Prop} {T : Tier → Prop} {c : Context}

theorem new_carries (around : Surroundings) (settings : Settings) :
    Carries P T (new around settings) where
  results resources h := by
    obtain rfl := Stage.collecting.inj h
    exact fun r hr => absurd hr List.not_mem_nil
  tier tier h := nomatch h
  below tier h := by
    obtain ⟨s, -, hs⟩ := List.mem_map.1 h
    exact nomatch hs

theorem register_carries (h : Carries P T c) {uri : String} {result : Option Loader.Loaded}
    (hr : ∀ l ∈ result, Loader.Loaded.Holds P l) {next : Context}
    (hnext : c.register uri result = .ok next) : Carries P T next := by
  unfold register at hnext
  cases hs : c.stage with
  | frozen tier =>
    rw [hs] at hnext
    exact nomatch hnext
  | collecting resources =>
    rw [hs] at hnext
    obtain rfl := Except.ok.inj hnext
    refine ⟨?_, nofun, h.below⟩
    intro others hothers r hmem
    obtain rfl := Stage.collecting.inj hothers
    rcases List.mem_append.1 hmem with hmem | hmem
    · exact h.results resources hs r hmem
    · obtain rfl := List.mem_singleton.1 hmem
      exact hr

theorem addPending_carries (h : Carries P T c) (hasRuntime : Bool) (uri : String)
    {next : Context} (hnext : c.addPending hasRuntime uri = .ok next) : Carries P T next := by
  unfold addPending at hnext
  split at hnext
  · exact nomatch hnext
  · split at hnext
    · exact register_carries h (fun _ hl => absurd hl (Option.not_mem_none _)) hnext
    · exact nomatch hnext

theorem changed_carries (h : Carries P T c) {result : Except ContextError Context}
    (hr : ∀ next, result = .ok next → Carries P T next) : Carries P T (c.changed result).1 := by
  cases result with
  | ok next => exact hr next rfl
  | error e => exact h

end

/-! ## §4. Steps. -/

section

variable {P : Entry → Prop} {T : Tier → Prop} (imparts : Imparts P T) {c : Context}

include imparts

theorem add_carries (h : Carries P T c) (uri : String) :
    (c.add uri).Always fun result => ∀ next, result = .ok next → Carries P T next := by
  unfold add
  split
  · exact fun next hnext => nomatch hnext
  · refine .bind (Loader.load_holds imparts.entries _ uri) fun result hresult => ?_
    intro next hnext
    refine register_carries h (fun l hl => ?_) hnext
    obtain rfl := Option.some.inj hl
    exact hresult

theorem settle_carries (h : Carries P T c) {loads : List Loader.Loaded}
    (hloads : ∀ l ∈ loads, Loader.Loaded.Holds P l) :
    (c.settle loads).Always fun result => ∀ next, result = .ok next → Carries P T next := by
  unfold settle
  cases htier : Tier.ofLoads c.around c.settings c.uris loads with
  | error e => exact fun next hnext => nomatch hnext
  | ok tier =>
    intro next hnext
    obtain rfl := Except.ok.inj hnext
    refine ⟨nofun, fun other hother => ?_, h.below⟩
    obtain rfl := Stage.frozen.inj hother
    exact imparts.tiers hloads htier

theorem freezeNow_carries (h : Carries P T c) :
    c.freezeNow.Always fun result => ∀ next, result = .ok next → Carries P T next := by
  unfold freezeNow
  split
  · exact fun next hnext => nomatch hnext
  · next resources hs =>
    split
    · next loads hloads =>
      refine settle_carries imparts h fun l hl => ?_
      obtain ⟨r, hr, hlr⟩ := mem_of_results?_eq_some hloads l hl
      exact h.results resources hs r hr l hlr
    · exact fun next hnext => nomatch hnext

theorem freeze_carries (h : Carries P T c) (answers : String → Reading) (pace : Nat → Pace)
    {next : Context} (hnext : (c.freeze answers pace).1 = .ok next) : Carries P T next := by
  unfold freeze at hnext
  split at hnext
  · exact nomatch hnext
  · next resources hs =>
    refine (settle_carries imparts h ?_).run answers next hnext
    -- a pending load has read what it gives, too
    refine joinAll_holds (fun j hj => ?_) _ _
    obtain ⟨i, r, hr, rfl⟩ := mem_joinables hj
    unfold joinable
    cases hresult : r.result with
    | some result => exact h.results resources hs r hr result hresult
    | none => exact (Loader.load_holds imparts.entries c.loader r.uri).course answers (pace i) [0]

theorem atLevel_carries {α : Type} {act : Chain → Errand (Chain × α)} (h : Carries P T c)
    (hact : ∀ chain, chain.Carries T → (act chain).Always fun r => r.1.Carries T) (level : Nat) :
    (c.atLevel level act).Always fun r => Carries P T r.1 := by
  cases level with
  | zero =>
    cases hs : c.stage with
    | collecting resources =>
      rw [atLevel_collecting hs]
      exact h
    | frozen tier =>
      rw [atLevel_frozen hs]
      refine .bind (hact ⟨tier, c.below⟩ ⟨h.tier tier hs, h.below⟩) fun r hr => ?_
      refine ⟨nofun, fun other hother => ?_, hr.below⟩
      exact Stage.frozen.inj hother ▸ hr.tier
  | succ n =>
    unfold atLevel
    refine .bind (Level.atDepth_carries imparts hact h.below n c.uris) fun r hr => ?_
    exact ⟨h.results, h.tier, hr⟩

theorem ask_carries {α : Type} (h : Carries P T c) (level : Nat) (id : String)
    (question : Question α) :
    (c.ask level id question).Always fun r => Carries P T r.1 := by
  have hlookup : ∀ chain : Chain, chain.Carries T →
      (chain.lookup c.around id question).Always fun r => r.1.Carries T :=
    fun chain hchain => Chain.lookup_carries imparts id question hchain
  exact .bind (atLevel_carries imparts h hlookup level) fun _ hr => hr

/-- Every step keeps the invariant. -/
theorem step_carries (h : Carries P T c) (world : World) (s : Step) :
    Carries P T (c.step world s).1.1 := by
  have hlook : ∀ {α : Type} (look : Tier → α) (level : Nat),
      (c.atLevel level fun chain => pure (chain, look chain.tier)).Always fun r =>
        Carries P T r.1 := by
    intro α look level
    refine atLevel_carries imparts h (fun chain hchain => ?_) level
    exact hchain
  cases s with
  | add uri => exact changed_carries h ((add_carries imparts h uri).run world.store.read)
  | addPending uri => exact changed_carries h fun next => addPending_carries h _ uri
  | freeze =>
    exact changed_carries h fun next => freeze_carries imparts h world.store.read world.pace
  | freezeNow => exact changed_carries h ((freezeNow_carries imparts h).run world.store.read)
  | summary level =>
    have hsummary : (c.summary level).Always fun r => Carries P T r.1 :=
      .bind (hlook Summary.ofTier level) fun _ hr => hr
    exact hsummary.run world.store.read
  | ids level => exact (hlook Tier.publicIds level).run world.store.read
  | get level id data => exact (ask_carries imparts h level id _).run world.store.read
  | getAttribute level id name data => exact (ask_carries imparts h level id _).run world.store.read
  | getAttributes level id data => exact (ask_carries imparts h level id _).run world.store.read
  | getEntity level id data => exact (ask_carries imparts h level id _).run world.store.read

/-- The invariant holds after every history. -/
theorem after_carries (around : Surroundings) (settings : Settings)
    (history : List (World × Step)) : Carries P T ((new around settings).after history) := by
  suffices hfold : ∀ c, Carries P T c → Carries P T (c.after history) by
    exact hfold _ (new_carries around settings)
  induction history with
  | nil => exact fun c h => h
  | cons first history ih => exact fun c h => ih _ (step_carries imparts h first.1 first.2)

/-- Every tier that the context stands for has the property. -/
theorem tiersFrom_carries (h : Carries P T c) (answers : String → Reading) (level : Nat) :
    ∀ tier ∈ c.tiersFrom answers level, T tier := by
  have hlevels := Level.tiers_carries imparts answers c.around h.below
  cases level with
  | zero =>
    cases hs : c.stage with
    | collecting resources =>
      rw [tiersFrom, hs]
      exact fun tier htier => absurd htier List.not_mem_nil
    | frozen first =>
      rw [tiersFrom_frozen hs]
      intro tier htier
      rcases List.mem_cons.1 htier with rfl | htier
      · exact h.tier tier hs
      · exact hlevels _ tier htier
  | succ n => exact fun tier htier => hlevels _ tier (List.mem_of_mem_drop htier)

end

end Context

end Phrasebook
