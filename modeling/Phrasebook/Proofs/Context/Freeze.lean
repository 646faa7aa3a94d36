/-
  Phrasebook.Proofs.Context.Freeze
  ────────────────────────────────
  **FREEZING IS NEVER FATAL.**

  Whatever steps have been taken, and whatever has been fetched, the results
  of a context can be defined, and there is a level for each locale:

      Sound             —  the invariant
      step_sound        —  every step keeps it
      after_sound       —  so it holds after every history
      freeze_accepted, freezeNow_accepted, freezeNow_refused, below_answers
                        —  what the invariant says of the next step
-/
import Phrasebook.Context.Step
import Phrasebook.Proofs.Context.Tier

namespace Phrasebook

namespace Context

/-! ## §1. Histories. -/

/-- A context after several steps, each in its own world. -/
def after (c : Context) (history : List (World × Step)) : Context :=
  history.foldl (fun c h => (c.step h.1 h.2).1.1) c

/-- Does the context answer lookups? -/
def isFrozen (c : Context) : Bool :=
  match c.stage with
  | .collecting _ => false
  | .frozen _ => true

/-- Is a load of the context pending? -/
def hasPending (c : Context) : Bool :=
  match c.stage with
  | .collecting resources => resources.any fun r => r.result.isNone
  | .frozen _ => false

/-! ## §2. The invariant. -/

/-- What came of the loads can be defined, and the levels below are those of
the settings. -/
structure Sound (settings : Settings) (c : Context) : Prop where
  results : ∀ resources, c.stage = .collecting resources →
    ∀ r ∈ resources, ∀ l ∈ r.result, Loader.Loaded.Definable l
  below : c.below.map Level.settings = settings.fallbacks

variable {settings : Settings} {c : Context}

theorem new_sound (around : Surroundings) (settings : Settings) :
    Sound settings (new around settings) where
  results resources h := by
    obtain rfl := Stage.collecting.inj h
    exact fun r hr => absurd hr List.not_mem_nil
  below := Level.map_settings_below settings

/-! ## §3. Collecting. -/

theorem register_sound (h : Sound settings c) (uri : String)
    {result : Option Loader.Loaded} (hr : ∀ l ∈ result, Loader.Loaded.Definable l) {next : Context}
    (hnext : c.register uri result = .ok next) : Sound settings next := by
  unfold register at hnext
  cases hs : c.stage with
  | frozen tier =>
    rw [hs] at hnext
    exact nomatch hnext
  | collecting resources =>
    rw [hs] at hnext
    obtain rfl := Except.ok.inj hnext
    refine ⟨?_, h.below⟩
    intro others hothers r hmem
    obtain rfl := Stage.collecting.inj hothers
    rcases List.mem_append.1 hmem with hmem | hmem
    · exact h.results resources hs r hmem
    · obtain rfl := List.mem_singleton.1 hmem
      exact hr

theorem add_sound (h : Sound settings c) (uri : String) :
    (c.add uri).Always fun result => ∀ next, result = .ok next → Sound settings next := by
  unfold add
  split
  · exact fun next hnext => nomatch hnext
  · refine .bind (Loader.load_definable _ uri) fun result hresult => ?_
    intro next hnext
    refine register_sound h uri (fun l hl => ?_) hnext
    obtain rfl := Option.some.inj hl
    exact hresult

theorem addPending_sound (h : Sound settings c) (hasRuntime : Bool) (uri : String)
    {next : Context} (hnext : c.addPending hasRuntime uri = .ok next) :
    Sound settings next := by
  unfold addPending at hnext
  split at hnext
  · exact nomatch hnext
  · split at hnext
    · exact register_sound h uri (fun _ hl => absurd hl (Option.not_mem_none _)) hnext
    · exact nomatch hnext

/-! ## §4. Freezing. -/

/-- Loads that can be defined freeze a context. -/
theorem settle_always (c : Context) {loads : List Loader.Loaded} (h : ∀ l ∈ loads, l.Definable) :
    (c.settle loads).Always fun result => ∃ tier, result = .ok { c with stage := .frozen tier } := by
  unfold settle
  rw [Tier.ofLoads_eq h]
  exact ⟨_, rfl⟩

theorem frozen_sound (h : Sound settings c) (tier : Tier) :
    Sound settings { c with stage := .frozen tier } :=
  ⟨nofun, h.below⟩

theorem results?_eq_none_iff (resources : List Registration) :
    results? resources = none ↔ (resources.any fun r => r.result.isNone) = true := by
  induction resources with
  | nil => exact iff_of_false nofun nofun
  | cons r resources ih =>
    rw [results?, List.any_cons]
    cases hr : r.result with
    | none => exact iff_of_true rfl rfl
    | some result =>
      cases hlater : results? resources with
      | none => exact iff_of_true rfl (by rw [ih.1 hlater]; rfl)
      | some later =>
        refine iff_of_false nofun fun hany => ?_
        have hnone := ih.2 (by simpa using hany)
        rw [hlater] at hnone
        exact nomatch hnone

theorem mem_of_results?_eq_some {resources : List Registration} {loads : List Loader.Loaded}
    (h : results? resources = some loads) : ∀ l ∈ loads, ∃ r ∈ resources, l ∈ r.result := by
  induction resources generalizing loads with
  | nil =>
    obtain rfl := Option.some.inj h
    exact fun l hl => absurd hl List.not_mem_nil
  | cons r resources ih =>
    rw [results?] at h
    cases hr : r.result with
    | none =>
      rw [hr] at h
      exact nomatch h
    | some result =>
      cases hlater : results? resources with
      | none =>
        rw [hr, hlater] at h
        exact nomatch h
      | some later =>
        rw [hr, hlater] at h
        obtain rfl := Option.some.inj h
        intro l hl
        rcases List.mem_cons.1 hl with rfl | hl
        · exact ⟨r, List.mem_cons_self, hr⟩
        · obtain ⟨r', hr', hl'⟩ := ih hlater l hl
          exact ⟨r', List.mem_cons_of_mem _ hr', hl'⟩

theorem hasPending_eq {resources : List Registration} (hs : c.stage = .collecting resources) :
    c.hasPending = resources.any fun r => r.result.isNone := by
  unfold hasPending
  rw [hs]

/-- Without pending loads, a context that collects can be frozen at once. -/
theorem freezeNow_always (h : Sound settings c) {resources : List Registration}
    (hs : c.stage = .collecting resources) (hpending : c.hasPending = false) :
    c.freezeNow.Always fun result => ∃ tier, result = .ok { c with stage := .frozen tier } := by
  have hcases : ∃ loads, results? resources = some loads := by
    refine Option.ne_none_iff_exists'.1 fun hnone => ?_
    have hany := (results?_eq_none_iff resources).1 hnone
    rw [← hasPending_eq hs, hpending] at hany
    exact nomatch hany
  obtain ⟨loads, hloads⟩ := hcases
  -- every load belongs to a resource, so it can be defined
  have hdefinable : ∀ l ∈ loads, l.Definable := by
    intro l hl
    obtain ⟨r, hmem, hlr⟩ := mem_of_results?_eq_some hloads l hl
    exact h.results resources hs r hmem l hlr
  unfold freezeNow
  rw [hs]
  dsimp only
  rw [hloads]
  exact settle_always c hdefinable

/-- With pending loads, a context that collects cannot be frozen at once. -/
theorem freezeNow_pending {resources : List Registration} (hs : c.stage = .collecting resources)
    (hpending : c.hasPending = true) : c.freezeNow = pure (.error .pendingLoads) := by
  rw [hasPending_eq hs] at hpending
  unfold freezeNow
  rw [hs]
  dsimp only
  rw [(results?_eq_none_iff resources).2 hpending]

theorem joinable_definable (c : Context) (answers : String → Reading) (pace : Pace)
    {r : Registration} (hr : ∀ l ∈ r.result, Loader.Loaded.Definable l) :
    (c.joinable answers pace r).Definable := by
  unfold joinable
  cases hresult : r.result with
  | some result => exact hr result hresult
  | none => exact (Loader.load_definable c.loader r.uri).course answers pace [0]

/-- A context that collects can be frozen, once its loads have been joined. -/
theorem freeze_eq (h : Sound settings c) {resources : List Registration}
    (hs : c.stage = .collecting resources) (answers : String → Reading) (pace : Nat → Pace) :
    ∃ tier, (c.freeze answers pace).1 = .ok { c with stage := .frozen tier } := by
  have hjoinable : ∀ j ∈ c.joinables answers pace resources, j.Definable := by
    intro j hj
    obtain ⟨i, r, hr, rfl⟩ := mem_joinables hj
    exact joinable_definable c answers (pace i) (h.results resources hs r hr)
  unfold freeze
  rw [hs]
  exact (settle_always c (joinAll_definable hjoinable _ 0)).run answers

theorem freeze_sound (h : Sound settings c) (answers : String → Reading) (pace : Nat → Pace)
    {next : Context} (hnext : (c.freeze answers pace).1 = .ok next) :
    Sound settings next := by
  cases hs : c.stage with
  | frozen tier =>
    unfold freeze at hnext
    rw [hs] at hnext
    exact nomatch hnext
  | collecting resources =>
    obtain ⟨tier, htier⟩ := freeze_eq h hs answers pace
    rw [htier] at hnext
    obtain rfl := Except.ok.inj hnext
    exact frozen_sound h tier

theorem freezeNow_sound (h : Sound settings c) :
    c.freezeNow.Always fun result => ∀ next, result = .ok next → Sound settings next := by
  cases hs : c.stage with
  | frozen tier =>
    unfold freezeNow
    rw [hs]
    exact fun next hnext => nomatch hnext
  | collecting resources =>
    cases hpending : c.hasPending with
    | true =>
      rw [freezeNow_pending hs hpending]
      exact fun next hnext => nomatch hnext
    | false =>
      refine (freezeNow_always h hs hpending).mono fun result hr next hnext => ?_
      obtain ⟨tier, rfl⟩ := hr
      obtain rfl := Except.ok.inj hnext
      exact frozen_sound h tier

/-! ## §5. Asking. -/

section

variable {α : Type} {act : Chain → Errand (Chain × α)}

theorem atLevel_collecting {resources : List Registration}
    (hs : c.stage = .collecting resources) :
    c.atLevel 0 act = pure (c, some (.error .notFrozen)) := by
  unfold atLevel
  rw [hs]

theorem atLevel_frozen {tier : Tier} (hs : c.stage = .frozen tier) :
    c.atLevel 0 act = (do
      let (chain, a) ← act ⟨tier, c.below⟩
      pure ({ c with stage := .frozen chain.tier, below := chain.below }, some (.ok a))) := by
  unfold atLevel
  rw [hs]

/-- What only looks at a tier keeps the settings of its chain. -/
theorem look_keeps (look : Tier → α) (chain : Chain) :
    (pure (chain, look chain.tier) : Errand (Chain × α)).Always fun r =>
      r.1.settings = chain.settings :=
  rfl

/-- What is asked at a level leaves the context as it should be. -/
theorem atLevel_sound (h : Sound settings c)
    (hact : ∀ chain, (act chain).Always fun r => r.1.settings = chain.settings) (level : Nat) :
    (c.atLevel level act).Always fun r => Sound settings r.1 := by
  cases level with
  | zero =>
    cases hs : c.stage with
    | collecting resources =>
      rw [atLevel_collecting hs]
      exact h
    | frozen tier =>
      rw [atLevel_frozen hs]
      refine .bind (hact ⟨tier, c.below⟩) fun r hr => ?_
      exact ⟨nofun, (List.cons.inj hr).2.trans h.below⟩
  | succ n =>
    -- nothing has to be said of the result, only of the levels
    have hkept : ∀ chain, (act chain).Always fun r => r.1.settings = chain.settings ∧ True :=
      fun chain => (hact chain).mono fun r hr => ⟨hr, trivial⟩
    have hdescent := Level.atDepth_always c.around (Q := fun _ _ => True) hkept c.below n c.uris
    unfold atLevel
    refine .bind hdescent fun r hr => ?_
    exact ⟨h.results, hr.settings.trans h.below⟩

/-- There is an answer from below if there is such a level, and it is that of
the tier there. -/
theorem atLevel_succ_always {Q : Settings → α → Prop}
    (hact : ∀ chain, (act chain).Always fun r =>
      r.1.settings = chain.settings ∧ Q chain.tier.settings r.2) (c : Context) (n : Nat) :
    (c.atLevel (n + 1) act).Always fun r =>
      ((c.below.map Level.settings)[n]? = none → r.2 = none)
        ∧ ∀ s, (c.below.map Level.settings)[n]? = some s → ∃ a, r.2 = some (.ok a) ∧ Q s a := by
  unfold atLevel
  refine .bind (Level.atDepth_always c.around hact c.below n c.uris) fun r hr => ⟨fun hnone => ?_, ?_⟩
  · rw [hr.none hnone]
    rfl
  · intro s hs
    obtain ⟨a, ha, hq⟩ := hr.some s hs
    rw [ha]
    exact ⟨a, rfl, hq⟩

end

theorem ask_sound {α : Type} (h : Sound settings c) (level : Nat) (id : String)
    (question : Question α) :
    (c.ask level id question).Always fun r => Sound settings r.1 :=
  .bind (atLevel_sound h (Chain.lookup_always id question) level) fun _ hr => hr

/-! ## §6. Steps. -/

theorem changed_sound (h : Sound settings c) {result : Except ContextError Context}
    (hr : ∀ next, result = .ok next → Sound settings next) :
    Sound settings (c.changed result).1 := by
  cases result with
  | ok next => exact hr next rfl
  | error e => exact h

/-- Every step keeps the invariant. -/
theorem step_sound (h : Sound settings c) (world : World) (s : Step) :
    Sound settings (c.step world s).1.1 := by
  cases s with
  | add uri => exact changed_sound h ((add_sound h uri).run world.store.read)
  | addPending uri => exact changed_sound h fun next => addPending_sound h _ uri
  | freeze => exact changed_sound h fun next => freeze_sound h world.store.read world.pace
  | freezeNow => exact changed_sound h ((freezeNow_sound h).run world.store.read)
  | summary level =>
    have hsound : (c.summary level).Always fun r => Sound settings r.1 :=
      .bind (atLevel_sound h (look_keeps Summary.ofTier) level) fun _ hr => hr
    exact hsound.run world.store.read
  | ids level => exact (atLevel_sound h (look_keeps Tier.publicIds) level).run world.store.read
  | get level id data => exact (ask_sound h level id _).run world.store.read
  | getAttribute level id name data => exact (ask_sound h level id _).run world.store.read
  | getAttributes level id data => exact (ask_sound h level id _).run world.store.read
  | getEntity level id data => exact (ask_sound h level id _).run world.store.read

/-- The invariant holds after every history. -/
theorem after_sound (around : Surroundings) (settings : Settings)
    (history : List (World × Step)) : Sound settings ((new around settings).after history) := by
  suffices hfold : ∀ c, Sound settings c → Sound settings (c.after history) by
    exact hfold _ (new_sound around settings)
  -- by induction on the history, from any context that has the invariant
  induction history with
  | nil => exact fun c h => h
  | cons first history ih => exact fun c h => ih _ (step_sound h first.1 first.2)

/-! ## §7. Answers. -/

theorem exists_collecting (hopen : c.isFrozen = false) :
    ∃ resources, c.stage = .collecting resources := by
  unfold isFrozen at hopen
  cases hs : c.stage with
  | collecting resources => exact ⟨resources, rfl⟩
  | frozen tier =>
    rw [hs] at hopen
    exact nomatch hopen

theorem changed_frozen {result : Except ContextError Context}
    (h : ∃ tier, result = .ok { c with stage := .frozen tier }) :
    (c.changed result).2 = .accepted ∧ (c.changed result).1.isFrozen = true := by
  obtain ⟨tier, rfl⟩ := h
  exact ⟨rfl, rfl⟩

theorem freeze_accepted (h : Sound settings c) (hopen : c.isFrozen = false) (world : World) :
    (c.step world .freeze).1.2 = .accepted ∧ (c.step world .freeze).1.1.isFrozen = true := by
  obtain ⟨resources, hs⟩ := exists_collecting hopen
  exact changed_frozen (freeze_eq h hs world.store.read world.pace)

theorem freezeNow_accepted (h : Sound settings c) (hopen : c.isFrozen = false)
    (hpending : c.hasPending = false) (world : World) :
    (c.step world .freezeNow).1.2 = .accepted
      ∧ (c.step world .freezeNow).1.1.isFrozen = true := by
  obtain ⟨resources, hs⟩ := exists_collecting hopen
  exact changed_frozen ((freezeNow_always h hs hpending).run world.store.read)

/-- Pending loads are refused, and kept. -/
theorem freezeNow_refused (hopen : c.isFrozen = false) (hpending : c.hasPending = true)
    (world : World) : (c.step world .freezeNow).1 = (c, .refused .pendingLoads) := by
  obtain ⟨resources, hs⟩ := exists_collecting hopen
  unfold step
  rw [freezeNow_pending hs hpending]
  rfl

/-- A summary from below is that of a frozen tier. -/
theorem summary_always (c : Context) (n : Nat) : (c.summary (n + 1)).Always fun r =>
    ((c.below.map Level.settings)[n]? = none → r.2 = none)
      ∧ ∀ s, (c.below.map Level.settings)[n]? = some s →
        ∃ failures, r.2 = some ⟨true, s, failures⟩ := by
  have hact : ∀ chain : Chain, (pure (chain, Summary.ofTier chain.tier) :
      Errand (Chain × Summary)).Always fun r => r.1.settings = chain.settings
        ∧ ∃ failures, r.2 = ⟨true, chain.tier.settings, failures⟩ :=
    fun chain => ⟨rfl, chain.tier.failures, rfl⟩
  refine .bind (atLevel_succ_always (Q := fun s a => ∃ failures, a = ⟨true, s, failures⟩) hact c n)
    fun r hr => ⟨fun hnone => ?_, fun s hs => ?_⟩
  · rw [hr.1 hnone]
    rfl
  · obtain ⟨a, ha, failures, rfl⟩ := hr.2 s hs
    rw [ha]
    exact ⟨failures, rfl⟩

theorem summary_answer (world : World) (c : Context) (level : Nat) :
    (c.step world (.summary level)).1.2
      = (((c.summary level).run world.store.read).1.2.map Answer.summary).getD .noLevel :=
  rfl

theorem ids_answer (world : World) (c : Context) (level : Nat) :
    (c.step world (.ids level)).1.2
      = answerOf .names ((c.ids level).run world.store.read).1.2 :=
  rfl

/-- There is a frozen context below for each locale that remains, and no
other. -/
theorem below_answers (h : Sound settings c) (world : World) (n : Nat) :
    (settings.locales.length < n + 2 → (c.step world (.summary (n + 1))).1.2 = .noLevel)
      ∧ (n + 2 ≤ settings.locales.length → ∃ failures names,
        (c.step world (.summary (n + 1))).1.2 = .summary
            ⟨true, { settings with locales := settings.locales.drop (n + 1) }, failures⟩
          ∧ (c.step world (.ids (n + 1))).1.2 = .names names) := by
  have hsummary := (summary_always c n).run world.store.read
  have hact : ∀ chain : Chain, (pure (chain, chain.tier.publicIds) :
      Errand (Chain × List String)).Always fun r => r.1.settings = chain.settings ∧ True :=
    fun _ => ⟨rfl, trivial⟩
  have hids := (atLevel_succ_always (Q := fun _ _ => True) hact c n).run world.store.read
  rw [h.below, Settings.fallbacks_getElem?] at hsummary hids
  rw [summary_answer, ids_answer]
  constructor
  · intro hshort
    have hnone : ¬ n + 1 < settings.locales.length := by omega
    rw [hsummary.1 (if_neg hnone)]
    rfl
  · intro hlong
    have hsome : n + 1 < settings.locales.length := by omega
    obtain ⟨failures, hfailures⟩ := hsummary.2 _ (if_pos hsome)
    obtain ⟨names, hnames, -⟩ := hids.2 _ (if_pos hsome)
    refine ⟨failures, names, ?_, ?_⟩
    · rw [hfailures]
      rfl
    · have hrun : ((c.ids (n + 1)).run world.store.read).1.2 = some (.ok names) := hnames
      rw [hrun]
      rfl

/-- What is read can be defined, all of it, and after every history a context
can be frozen and has a frozen context below for each locale that remains. -/
theorem freezing_is_never_fatal :
    (∀ (source : String) (r : Registry),
        (∀ es, Resource.read source = .ok es →
          (r.compile es).2 = .ok (Entry.countDefinitions es))
        ∧ (r.compile (Resource.salvage source).entries).2
            = .ok (Entry.countDefinitions (Resource.salvage source).entries))
      ∧ ∀ (around : Surroundings) (settings : Settings) (history : List (World × Step))
          (world : World),
        let c := (new around settings).after history
        (c.isFrozen = false →
          (c.step world .freeze).1.2 = .accepted
            ∧ (c.step world .freeze).1.1.isFrozen = true
            ∧ (c.hasPending = false → (c.step world .freezeNow).1.2 = .accepted
              ∧ (c.step world .freezeNow).1.1.isFrozen = true)
            ∧ (c.hasPending = true →
              (c.step world .freezeNow).1 = (c, .refused .pendingLoads)))
        ∧ ∀ n, (settings.locales.length < n + 2 →
              (c.step world (.summary (n + 1))).1.2 = .noLevel)
          ∧ (n + 2 ≤ settings.locales.length → ∃ failures names,
              (c.step world (.summary (n + 1))).1.2 = .summary
                  ⟨true, { settings with locales := settings.locales.drop (n + 1) }, failures⟩
                ∧ (c.step world (.ids (n + 1))).1.2 = .names names) := by
  refine ⟨fun source r => ⟨fun es hes => ?_, ?_⟩, fun around settings history world => ?_⟩
  · obtain ⟨r', hr⟩ := Registry.compile_eq_of_definable (Resource.definable_of_read hes) r
    rw [hr]
  · obtain ⟨r', hr⟩ := Registry.compile_eq_of_definable (Resource.definable_of_salvage source) r
    rw [hr]
  · have hsound := after_sound around settings history
    refine ⟨fun hopen => ?_, fun n => below_answers hsound world n⟩
    obtain ⟨haccepted, hfrozen⟩ := freeze_accepted hsound hopen world
    exact ⟨haccepted, hfrozen, fun hpending => freezeNow_accepted hsound hopen hpending world,
      fun hpending => freezeNow_refused hopen hpending world⟩

end Context

end Phrasebook
