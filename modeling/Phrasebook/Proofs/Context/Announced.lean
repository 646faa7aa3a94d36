/-
  Phrasebook.Proofs.Context.Announced
  ────────────────────────────────
  **WHAT A CONTEXT ANNOUNCES.**

  Each time a tier is frozen, that is announced, behind the syntax errors of
  all texts that have been opened for it; and nothing is announced without a
  tier being frozen, or being loaded:

      Log.Counts       —  a log announces the tiers that are frozen meanwhile
      step_readies, seen_readies
                       —  so does every step, and by induction every history
      steps_gathered   —  the log of an orderly run, by induction on its steps
      announced        —  what a context in an orderly run has announced
      announcing       —  all of this
-/
import Phrasebook.Proofs.Context.Refusal
import Phrasebook.Proofs.Load.Opened
import Phrasebook.Proofs.Resource.Agreement

namespace Phrasebook

open Phrasebook.Eager

/-! ## §1. Logs that count tiers. -/

namespace Log

/-- How often it is announced that a tier has been frozen. -/
def readies (log : Log) : Nat :=
  log.events.count .ready

theorem readies_append (log later : Log) :
    readies (log ++ later) = log.readies + Log.readies later := by
  unfold readies
  rw [events_append, List.count_append]

theorem readies_eq_zero {log : Log}
    (h : ∀ event, .event event ∈ log → Loader.IsDiagnostic event) : log.readies = 0 := by
  refine List.count_eq_zero.2 fun hready => ?_
  obtain ⟨note, hnote, hevent⟩ := List.mem_filterMap.1 hready
  cases note with
  | read path => exact nomatch hevent
  | event event =>
    obtain rfl := Option.some.inj hevent
    obtain ⟨e, he⟩ := h _ hnote
    exact nomatch he

/-- The log announces every tier by which there are more in the end, and it is
empty if there are no more. -/
structure Counts (log : Log) (before after : Nat) : Prop where
  count : before + log.readies = after
  silent : log.readies = 0 → log = []

namespace Counts

variable {log later : Log} {a b c : Nat}

theorem refl (n : Nat) : Counts [] n n :=
  ⟨rfl, fun _ => rfl⟩

theorem append (h : log.Counts a b) (h' : Log.Counts later b c) :
    Log.Counts (log ++ later) a c := by
  have hcount := h.count
  have hcount' := h'.count
  refine ⟨?_, fun hnone => ?_⟩
  · rw [readies_append]
    omega
  · rw [readies_append] at hnone
    rw [h.silent (by omega), h'.silent (by omega)]
    rfl

theorem add_left (h : log.Counts a b) (n : Nat) : log.Counts (n + a) (n + b) := by
  have hcount := h.count
  exact ⟨by omega, h.silent⟩

end Counts

end Log

/-! ## §2. Levels. -/

/-- The tier of a level that has been built. -/
def Level.tier? : Level → Option Tier
  | .planned _ => none
  | .built tier => some tier

/-- How many levels have been built. -/
def Level.builtCount (levels : List Level) : Nat :=
  (levels.filterMap Level.tier?).length

theorem Level.builtCount_built (tier : Tier) (levels : List Level) :
    Level.builtCount (.built tier :: levels) = 1 + Level.builtCount levels :=
  Nat.add_comm _ _

theorem Level.filterMap_planned (ss : List Settings) :
    (ss.map Level.planned).filterMap Level.tier? = [] := by
  rw [List.filterMap_map]
  exact List.filterMap_eq_nil_iff.2 fun _ _ => rfl

/-- Loading a tier announces one tier. -/
theorem Supply.tierLog_readies (supply : Supply) (settings : Settings) :
    (supply.tierLog settings).readies = 1 := by
  have hloads : Log.readies (supply.uris.flatMap fun uri => (supply.loaded settings uri).2) = 0 := by
    refine Log.readies_eq_zero fun event hevent => ?_
    obtain ⟨uri, -, hmem⟩ := List.mem_flatMap.1 hevent
    exact (Loader.load_announces _ uri).run supply.answers event hmem
  unfold tierLog
  rw [Log.readies_append, hloads]
  rfl

section

variable {answers : String → Reading} {around : Surroundings}

/-- A level that is needed is announced if it was missing. -/
theorem Level.tier_counts (uris : List String) (level : Level) (levels : List Level) :
    ∃ tier log, (level.tier around uris).run answers = (some tier, log)
      ∧ log.Counts (Level.builtCount (level :: levels))
        (Level.builtCount (.built tier :: levels)) := by
  cases level with
  | built tier => exact ⟨tier, [], rfl, .refl _⟩
  | planned settings =>
    let supply : Supply := ⟨answers, around, uris⟩
    refine ⟨supply.tier settings, supply.tierLog settings ++ [],
      Errand.run_bind_eq (supply.load_run settings) rfl, ?_⟩
    rw [List.append_nil, builtCount_built, Nat.add_comm]
    have hready := supply.tierLog_readies settings
    refine ⟨?_, fun hnone => absurd (hready.symm.trans hnone) Nat.one_ne_zero⟩
    rw [hready]
    rfl

variable {α : Type} {act : Chain → Errand (Chain × α)}

variable (answers) in
/-- What is done with a chain announces the tiers that are built for it. -/
def Chain.Counts (act : Chain → Errand (Chain × α)) : Prop :=
  ∀ tier levels, ∃ below a log, (act ⟨tier, levels⟩).run answers = ((⟨tier, below⟩, a), log)
    ∧ log.Counts (Level.builtCount levels) (Level.builtCount below)

theorem Level.atDepth_counts (h : Chain.Counts answers act) (levels : List Level) :
    ∀ n uris, ∃ below a log,
      (Level.atDepth around act n uris levels).run answers = ((below, a), log)
        ∧ log.Counts (Level.builtCount levels) (Level.builtCount below) := by
  induction levels with
  | nil =>
    intro n uris
    exact ⟨[], none, [], by cases n <;> rfl, .refl _⟩
  | cons level levels ih =>
    intro n uris
    obtain ⟨tier, log, hrun, hcounts⟩ := Level.tier_counts uris level levels
    rw [Level.atDepth]
    cases n with
    | zero =>
      obtain ⟨below, a, later, hact, hlater⟩ := h tier levels
      refine ⟨.built tier :: below, some a, log ++ (later ++ []),
        Errand.run_bind_eq hrun (Errand.run_bind_eq hact rfl), ?_⟩
      rw [List.append_nil]
      rw [builtCount_built] at hcounts ⊢
      exact hcounts.append (hlater.add_left 1)
    | succ n =>
      obtain ⟨below, a, later, hdepth, hlater⟩ := ih n tier.uris
      refine ⟨.built tier :: below, a, log ++ (later ++ []),
        Errand.run_bind_eq hrun (Errand.run_bind_eq hdepth rfl), ?_⟩
      rw [List.append_nil]
      rw [builtCount_built] at hcounts ⊢
      exact hcounts.append (hlater.add_left 1)

/-- What only looks at a tier announces nothing. -/
theorem Chain.look_counts (look : Tier → α) :
    Chain.Counts answers fun chain => pure (chain, look chain.tier) :=
  fun tier levels => ⟨levels, look tier, [], rfl, .refl _⟩

/-- A search announces the tiers that it goes down to for the first time. -/
theorem Chain.searchFrom_counts (id : String) (levels : List Level) : ∀ tier : Tier,
    ∃ below f log, (Chain.searchFrom around id tier levels).run answers = ((f, below), log)
      ∧ log.Counts (Level.builtCount levels) (Level.builtCount below) := by
  induction levels with
  | nil =>
    intro tier
    cases h : tier.publicEntity? id with
    | some e =>
      rw [Chain.searchFrom_found h]
      exact ⟨[], _, [], rfl, .refl _⟩
    | none =>
      rw [Chain.searchFrom_last h]
      exact ⟨[], _, [], rfl, .refl _⟩
  | cons level levels ih =>
    intro tier
    cases h : tier.publicEntity? id with
    | some e =>
      rw [Chain.searchFrom_found h]
      exact ⟨level :: levels, _, [], rfl, .refl _⟩
    | none =>
      obtain ⟨next, log, hrun, hcounts⟩ := Level.tier_counts tier.uris level levels
      obtain ⟨below, f, later, hsearch, hlater⟩ := ih next
      rw [Chain.searchFrom_next h]
      refine ⟨.built next :: below, f, log ++ (later ++ []),
        Errand.run_bind_eq hrun (Errand.run_bind_eq hsearch rfl), ?_⟩
      rw [List.append_nil]
      rw [Level.builtCount_built] at hcounts ⊢
      exact hcounts.append (hlater.add_left 1)

variable (around) in
theorem Chain.lookup_counts (id : String) (question : Context.Question α) :
    Chain.Counts answers (Chain.lookup around id question) := by
  intro tier levels
  obtain ⟨below, f, log, hsearch, hcounts⟩ := Chain.searchFrom_counts id levels tier
  refine ⟨below, f.answer around.host id question, (log ++ []) ++ [],
    Errand.run_bind_eq (Errand.run_bind_eq hsearch rfl) rfl, ?_⟩
  rwa [List.append_nil, List.append_nil]

end

/-! ## §3. Contexts. -/

namespace Context

/-- The tiers that have been frozen for a context, from its own one down. -/
def frozenTiers (c : Context) : List Tier :=
  match c.stage with
  | .collecting _ => c.below.filterMap Level.tier?
  | .frozen tier => tier :: c.below.filterMap Level.tier?

variable {c : Context}

theorem frozenTiers_collecting {resources : List Registration}
    (hs : c.stage = .collecting resources) :
    c.frozenTiers = c.below.filterMap Level.tier? := by
  unfold frozenTiers
  rw [hs]

theorem frozenTiers_frozen {tier : Tier} (hs : c.stage = .frozen tier) :
    c.frozenTiers = tier :: c.below.filterMap Level.tier? := by
  unfold frozenTiers
  rw [hs]

theorem new_frozenTiers (around : Surroundings) (settings : Settings) :
    (new around settings).frozenTiers = [] :=
  Level.filterMap_planned settings.fallbacks

/-- What is built below is announced, whatever the context is doing. -/
theorem counts_below {log : Log} {below : List Level}
    (h : log.Counts (Level.builtCount c.below) (Level.builtCount below)) :
    log.Counts c.frozenTiers.length ({ c with below } : Context).frozenTiers.length := by
  cases hs : c.stage with
  | collecting resources =>
    rw [frozenTiers_collecting hs]
    exact h
  | frozen tier =>
    have hcounts := h.add_left 1
    rw [Nat.add_comm 1, Nat.add_comm 1] at hcounts
    rw [frozenTiers_frozen hs]
    exact hcounts

section

variable {answers : String → Reading} {α : Type} {act : Chain → Errand (Chain × α)}

theorem atLevel_counts (h : Chain.Counts answers act) (c : Context) (level : Nat) :
    ∃ next a log, (c.atLevel level act).run answers = ((next, a), log)
      ∧ log.Counts c.frozenTiers.length next.frozenTiers.length := by
  cases level with
  | zero =>
    cases hs : c.stage with
    | collecting resources =>
      rw [atLevel_collecting hs]
      exact ⟨c, _, [], rfl, .refl _⟩
    | frozen tier =>
      obtain ⟨below, a, log, hact, hcounts⟩ := h tier c.below
      rw [atLevel_frozen hs]
      refine ⟨{ c with below }, some (.ok a), log ++ [], Errand.run_bind_eq hact ?_, ?_⟩
      · show ((({ c with stage := .frozen tier, below := below } : Context), _), _) = _
        rw [← hs]
      · rw [List.append_nil]
        exact counts_below hcounts
  | succ n =>
    obtain ⟨below, a, log, hdepth, hcounts⟩ := Level.atDepth_counts h c.below n c.uris
    refine ⟨{ c with below }, a.map .ok, log ++ [], Errand.run_bind_eq hdepth rfl, ?_⟩
    rw [List.append_nil]
    exact counts_below hcounts

end

/-! ## §4. Steps. -/

/-- A question announces the tiers that are built for it, and if none is,
nothing is seen of it. -/
theorem question_counts (c : Context) (world : World) {s : Step} (hasks : s.asks = true) :
    (c.step world s).2.Counts c.frozenTiers.length (c.step world s).1.1.frozenTiers.length := by
  have hasking : ∀ {α : Type} (make : α → Answer)
      {errand : Errand (Context × Option (Except ContextError α))},
      (∃ next a log, errand.run world.store.read = ((next, a), log)
        ∧ log.Counts c.frozenTiers.length next.frozenTiers.length) →
      (step.asking world make errand).2.Counts c.frozenTiers.length
        (step.asking world make errand).1.1.frozenTiers.length := by
    rintro α make errand ⟨next, a, log, hrun, hcounts⟩
    unfold step.asking
    rw [hrun]
    exact hcounts
  have hask : ∀ {α : Type} (level : Nat) (id : String) (question : Question α),
      ∃ next a log, (c.ask level id question).run world.store.read = ((next, a), log)
        ∧ log.Counts c.frozenTiers.length next.frozenTiers.length := by
    intro α level id question
    obtain ⟨next, a, log, hrun, hcounts⟩ :=
      atLevel_counts (Chain.lookup_counts c.around id question) c level
    refine ⟨next, _, log ++ [], Errand.run_bind_eq hrun rfl, ?_⟩
    rwa [List.append_nil]
  cases s with
  | add _ | addPending _ | freeze | freezeNow => exact nomatch hasks
  | summary level =>
    have hlook : Chain.Counts world.store.read _ := Chain.look_counts Summary.ofTier
    obtain ⟨next, a, log, hrun, hcounts⟩ := atLevel_counts hlook c level
    have hsummary : (c.summary level).run world.store.read = ((next, _), log ++ []) :=
      Errand.run_bind_eq hrun rfl
    simp only [step, hsummary, List.append_nil]
    exact hcounts
  | ids level => exact hasking .names (atLevel_counts (Chain.look_counts Tier.publicIds) c level)
  | get level id data => exact hasking .text (hask level id _)
  | getAttribute level id name data => exact hasking .value (hask level id _)
  | getAttributes level id data => exact hasking .attributes (hask level id _)
  | getEntity level id data => exact hasking .entity (hask level id _)

/-- The work of pending loads announces no tier. -/
theorem work_readies (c : Context) (world : World) (allowed : Nat)
    (resources : List Registration) :
    Log.readies (interleave (joinAll allowed 0
      (c.joinables world.store.read world.pace resources)).2) = 0 := by
  refine Log.readies_eq_zero fun event hevent => ?_
  obtain ⟨uri, course, hmem, hcourse⟩ := joinAll_work hevent
  obtain ⟨i, r, -, hr⟩ := mem_joinables hmem
  unfold joinable at hr
  split at hr
  · exact nomatch hr
  · obtain ⟨rfl, rfl⟩ := Joinable.pending.inj hr
    exact (Loader.load_announces c.loader r.uri).course world.store.read (world.pace i) _ event
      hcourse

/-- Freezing announces the tier, unless it is refused. -/
theorem settle_readies {resources : List Registration} (hs : c.stage = .collecting resources)
    (loads : List Loader.Loaded) (answers : String → Reading) :
    c.frozenTiers.length + ((c.settle loads).run answers).2.readies
      = (c.changed ((c.settle loads).run answers).1).1.frozenTiers.length := by
  unfold settle
  cases Tier.ofLoads c.around c.settings c.uris loads with
  | error e => rfl
  | ok tier =>
    rw [frozenTiers_collecting hs]
    rfl

/-- Every step announces the tiers that are frozen by it. -/
theorem step_readies (c : Context) (world : World) (s : Step) :
    c.frozenTiers.length + (c.step world s).2.readies
      = (c.step world s).1.1.frozenTiers.length := by
  cases hasks : s.asks with
  | true => exact (question_counts c world hasks).count
  | false =>
    cases hs : c.stage with
    | frozen tier =>
      rw [step_frozen hs world hasks]
      rfl
    | collecting resources =>
      -- to register a resource freezes nothing
      have hregister : ∀ uri result, (c.changed (c.register uri result)).1.frozenTiers
          = c.frozenTiers := by
        intro uri result
        unfold register
        rw [hs, frozenTiers_collecting hs]
        rfl
      cases s, hasks using Step.change_cases with
      | add uri =>
        have hload := Log.readies_eq_zero
          ((Loader.load_announces c.loader uri).run world.store.read)
        have hadd : (c.add uri).run world.store.read
            = (c.register uri (some ((c.loader.load uri).run world.store.read).1),
              ((c.loader.load uri).run world.store.read).2 ++ []) := by
          unfold add
          rw [hs]
          exact Errand.run_bind_eq rfl rfl
        simp only [step, step.changing, hadd, List.append_nil, hload, hregister]
        rfl
      | addPending uri =>
        simp only [step, addPending, hs]
        split
        · exact congrArg List.length (hregister uri none).symm
        · rfl
      | freeze =>
        have hwork := work_readies c world c.settings.loadTimeout resources
        simp only [step, freeze, hs, Log.readies_append, hwork, Nat.zero_add]
        exact settle_readies hs _ _
      | freezeNow =>
        simp only [step, step.changing, freezeNow, hs]
        cases results? resources with
        | none => rfl
        | some loads => exact settle_readies hs loads _

/-- What is seen of a history. -/
def seen (c : Context) : List (World × Step) → Log
  | [] => []
  | (world, s) :: history => (c.step world s).2 ++ (c.step world s).1.1.seen history

/-- Every history announces the tiers that are frozen in it. -/
theorem seen_readies (c : Context) (history : List (World × Step)) :
    c.frozenTiers.length + (c.seen history).readies = (c.after history).frozenTiers.length := by
  induction history generalizing c with
  | nil => rfl
  | cons first history ih =>
    obtain ⟨world, s⟩ := first
    have hstep := step_readies c world s
    have hlater := ih (c.step world s).1.1
    rw [seen, Log.readies_append]
    show _ = ((c.step world s).1.1.after history).frozenTiers.length
    omega

/-! ## §5. Orderly runs. -/

/-- A run in which no load is left pending, and nothing is asked below before
the context itself is frozen. -/
structure Orderly (world : World) (c : Context) (ss : List Step) : Prop where
  loaded : ∀ uri, .addPending uri ∈ ss → world.hasRuntime = false
  below : ∀ before s later, ss = before ++ s :: later → 0 < s.level →
    (c.steps world before).1.1.isFrozen = true

theorem Orderly.tail {world : World} {s : Step} {ss : List Step} (h : Orderly world c (s :: ss)) :
    Orderly world (c.step world s).1.1 ss where
  loaded uri huri := h.loaded uri (List.mem_cons_of_mem s huri)
  below before s' later hsplit := h.below (s :: before) s' later (congrArg (List.cons s) hsplit)

theorem Orderly.level {world : World} {s : Step} {ss : List Step} (h : Orderly world c (s :: ss))
    (hopen : c.isFrozen = false) : s.level = 0 := by
  refine Nat.eq_zero_of_not_pos fun hlevel => ?_
  have hfrozen := h.below [] s ss rfl hlevel
  exact absurd (hopen.symm.trans hfrozen) Bool.false_ne_true

end Context

/-- Loads that are over leave nothing to be done. -/
theorem joinAll_loaded (allowed now : Nat) (loads : List Loader.Loaded) :
    joinAll allowed now (loads.map .loaded) = (loads, []) := by
  induction loads with
  | nil => rfl
  | cons load loads ih =>
    rw [List.map_cons, joinAll]
    show (load :: (joinAll allowed now _).1, [] ++ (joinAll allowed now _).2) = _
    rw [ih]
    rfl

namespace Supply

variable (supply : Supply) (settings : Settings)

/-- The context that has loaded all resources, and collects. -/
def gathered : Context :=
  supply.collecting settings (supply.uris.map (supply.registration settings))

/-- What is seen of loading the resources. -/
def loadLog : Log :=
  supply.uris.flatMap fun uri => (supply.loaded settings uri).2

variable {supply} {world : World}

section

variable {settings}

theorem step_freeze_gathered (hworld : world.store.read = supply.answers) :
    (supply.gathered settings).step world .freeze
      = ((supply.frozenAt settings 0, .accepted), [.event .ready]) := by
  have hjoinables : (supply.gathered settings).joinables world.store.read world.pace
      (supply.uris.map (supply.registration settings))
      = (supply.uris.map fun uri => (supply.loaded settings uri).1).map .loaded := by
    refine List.mapIdx_eq_iff.2 fun i => ?_
    rw [List.getElem?_map, List.getElem?_map, List.getElem?_map, Option.map_map, Option.map_map]
    rfl
  -- without pending loads, both ways to freeze join nothing
  have hnow : (supply.gathered settings).step world .freezeNow = _ := step_freezeNow hworld
  rw [← hnow]
  have hstage : (supply.gathered settings).stage
      = .collecting (supply.uris.map (supply.registration settings)) := rfl
  simp only [Context.step, Context.step.changing, Context.freeze, Context.freezeNow, hstage,
    results?_registration, hjoinables]
  rw [show (supply.gathered settings).settings = settings from rfl, joinAll_loaded]
  rfl

variable (supply settings) in
/-- What a step does to a context that has loaded all of its resources: it
loads one more, or freezes the context, or does nothing. -/
theorem step_gathered (hworld : world.store.read = supply.answers) {s : Step}
    (hlevel : s.level = 0) (hloaded : ∀ uri, s = .addPending uri → world.hasRuntime = false) :
    let step := (supply.gathered settings).step world s
    (∃ uri, (step.1.1, step.2)
        = (({ supply with uris := supply.uris ++ [uri] } : Supply).gathered settings,
          (supply.loaded settings uri).2))
      ∨ (step.1.1, step.2) = (supply.frozenAt settings 0, [.event .ready])
      ∨ (step.1.1, step.2) = (supply.gathered settings, []) := by
  intro step
  have hstage : (supply.gathered settings).stage
      = .collecting (supply.uris.map (supply.registration settings)) := rfl
  cases hasks : s.asks with
  | true =>
    have hstep : step = _ := Context.step_asks hstage world hasks hlevel
    rw [hstep]
    exact .inr (.inr rfl)
  | false =>
    cases s, hasks using Step.change_cases with
    | add uri =>
      have hstep : step = _ := step_add hworld _ uri
      rw [hstep]
      refine .inl ⟨uri, ?_⟩
      unfold gathered
      rw [List.map_append]
      rfl
    | addPending uri =>
      refine .inr (.inr ?_)
      have hrefused : (supply.gathered settings).addPending world.hasRuntime uri
          = .error .noRuntime := by
        unfold Context.addPending
        rw [hstage, hloaded uri rfl]
        rfl
      have hstep : step = (((supply.gathered settings), .refused .noRuntime), []) := by
        show (Context.changed _ _, _) = _
        rw [hrefused]
        rfl
      rw [hstep]
    | freeze =>
      have hstep : step = _ := step_freeze_gathered hworld
      rw [hstep]
      exact .inr (.inl rfl)
    | freezeNow =>
      have hstep : step = _ := step_freezeNow hworld
      rw [hstep]
      exact .inr (.inl rfl)

variable (supply settings) in
/-- Where an orderly run gets to, and what has been seen by then: all loads
and no tier, or all tiers down to some level. -/
def Reaches (c : Context) (log : Log) : Prop :=
  (c = supply.gathered settings ∧ log = supply.loadLog settings)
    ∨ ∃ r, c = supply.frozenAt settings r
      ∧ log = (settings.tails.take (r + 1)).flatMap supply.tierLog

theorem steps_frozen (hworld : world.store.read = supply.answers) (ss : List Step) :
    supply.Reaches settings ((supply.frozenAt settings 0).steps world ss).1.1
      (supply.loadLog settings
        ++ ([.event .ready] ++ ((supply.frozenAt settings 0).steps world ss).2)) := by
  refine .inr ⟨reachAll (supply.tiers settings) ss, ?_, ?_⟩
  · rw [steps_frozenAt hworld, Nat.zero_max]
  · have htiers := supply.tierLog_append_fresh settings (reachAll (supply.tiers settings) ss)
    rw [steps_frozenAt hworld, ← List.append_assoc]
    refine htiers.trans ?_
    unfold logs
    rw [← List.map_take, List.flatMap_def]

end

/-- An orderly run reaches one of these, with the resources that have been
registered in it. -/
theorem steps_gathered (ss : List Step) : ∀ supply : Supply,
    world.store.read = supply.answers → Context.Orderly world (supply.gathered settings) ss →
    ∃ uris, ({ supply with uris } : Supply).Reaches settings
      ((supply.gathered settings).steps world ss).1.1
      (supply.loadLog settings ++ ((supply.gathered settings).steps world ss).2) := by
  -- by induction on the steps, from any resources that have been loaded
  induction ss with
  | nil => exact fun supply _ _ => ⟨supply.uris, .inl ⟨rfl, List.append_nil _⟩⟩
  | cons s ss ih =>
    intro supply hworld horderly
    have hloaded : ∀ uri, s = .addPending uri → world.hasRuntime = false :=
      fun uri hs => horderly.loaded uri (hs ▸ List.mem_cons_self)
    have hstep := supply.step_gathered settings hworld (horderly.level rfl) hloaded
    have htail := horderly.tail
    rw [Context.steps]
    generalize (supply.gathered settings).step world s = step at hstep htail
    obtain ⟨⟨next, answer⟩, log⟩ := step
    rcases hstep with ⟨uri, hstep⟩ | hstep | hstep <;> obtain ⟨rfl, rfl⟩ := Prod.mk.inj hstep
    · obtain ⟨uris, hreaches⟩ := ih { supply with uris := supply.uris ++ [uri] } hworld htail
      refine ⟨uris, ?_⟩
      have hlog : ({ supply with uris := supply.uris ++ [uri] } : Supply).loadLog settings
          = supply.loadLog settings ++ (supply.loaded settings uri).2 := by
        unfold loadLog
        rw [List.flatMap_append, List.flatMap_singleton]
        rfl
      rw [hlog, List.append_assoc] at hreaches
      exact hreaches
    · exact ⟨supply.uris, steps_frozen hworld ss⟩
    · exact ih supply hworld htail

end Supply

/-- Runs that load resources, freeze the context, and go on with whatever
steps, are orderly. -/
theorem Context.orderly_adds (world : World) (around : Surroundings) (settings : Settings)
    (uris : List String) {ss : List Step}
    (hloaded : ∀ uri, .addPending uri ∈ ss → world.hasRuntime = false) :
    Orderly world (new around settings) (uris.map .add ++ .freezeNow :: ss) where
  loaded uri huri := by
    rcases List.mem_append.1 huri with huri | huri
    · obtain ⟨other, -, hother⟩ := List.mem_map.1 huri
      exact nomatch hother
    · rcases List.mem_cons.1 huri with huri | huri
      · exact nomatch huri
      · exact hloaded uri huri
  below before s later hsplit hlevel := by
    -- a step that is put below is one of `ss`, so the context has been frozen before it
    have hfirst : ∀ s' ∈ uris.map Step.add ++ [.freezeNow], s'.level = 0 := by
      intro s' hs'
      rcases List.mem_append.1 hs' with hs' | hs'
      · obtain ⟨uri, -, rfl⟩ := List.mem_map.1 hs'
        rfl
      · rw [List.mem_singleton.1 hs']
        rfl
    obtain ⟨done, rfl⟩ : uris.map .add ++ [.freezeNow] <+: before := by
      rw [List.append_cons] at hsplit
      rcases List.append_eq_append_iff.1 hsplit with ⟨done, hbefore, -⟩ | ⟨rest, hrest, hsteps⟩
      · exact ⟨done, hbefore.symm⟩
      · cases rest with
        | nil => exact ⟨[], by rw [hrest]; simp only [List.append_nil]⟩
        | cons s' rest =>
          obtain ⟨rfl, -⟩ := List.cons.inj hsteps
          have hzero := hfirst s (by rw [hrest]; simp)
          omega
    let supply : Supply := ⟨world.store.read, around, uris⟩
    have hrun := Supply.steps_new (show world.store.read = supply.answers from rfl) settings done
    have hfrozen := congrArg (fun run => run.1.1.isFrozen) hrun
    rw [List.append_assoc, List.singleton_append]
    exact hfrozen

/-! ## §6. What has been announced. -/

namespace Context

/-- What is announced of the loads of resources that open these texts. -/
def announcedLoads (opened : String → List String) (uris : List String) : List Event :=
  uris.flatMap fun uri => (opened uri).flatMap Loader.diagnostics

/-- What a context has announced if the loads of its tiers have opened these
texts: for each tier the syntax errors of its texts, and then the tier; and
for the tier that is not frozen yet the syntax errors by now. -/
def announced (opened : Settings → String → List String) (c : Context) : List Event :=
  (c.frozenTiers.flatMap fun tier =>
      announcedLoads (opened tier.settings) tier.uris ++ [.ready])
    ++ match c.stage with
      | .collecting _ => announcedLoads (opened c.settings) c.uris
      | .frozen _ => []

end Context

namespace Supply

variable {supply : Supply} {settings : Settings}

theorem filterMap_levels (r : Nat) (ss : List Settings) :
    (supply.levels r ss).filterMap Level.tier? = (ss.take r).map supply.tier := by
  induction ss generalizing r with
  | nil =>
    rw [List.take_nil]
    cases r <;> rfl
  | cons s ss ih =>
    cases r with
    | zero =>
      rw [levels_zero]
      exact Level.filterMap_planned _
    | succ r =>
      show supply.tier s :: (supply.levels r ss).filterMap Level.tier? = _
      rw [ih]
      rfl

theorem frozenAt_frozenTiers (r : Nat) :
    (supply.frozenAt settings r).frozenTiers = (settings.tails.take (r + 1)).map supply.tier := by
  rw [Settings.tails_eq, List.take_succ_cons, List.map_cons, ← filterMap_levels]
  rfl

theorem gathered_uris : (supply.gathered settings).uris = supply.uris := by
  show (supply.uris.map (supply.registration settings)).map Registration.uri = _
  rw [List.map_map]
  exact List.map_id _

/-- What is announced of loading resources, if these are the texts. -/
theorem flatMap_loaded_events {opened : Settings → String → List String}
    (hopened : ∀ s uri, (supply.loaded s uri).2.events
      = (opened s uri).flatMap Loader.diagnostics) (s : Settings) :
    (supply.loadLog s).events = Context.announcedLoads (opened s) supply.uris := by
  unfold loadLog Context.announcedLoads Log.events
  rw [List.filterMap_flatMap]
  exact List.flatMap_congr fun uri _ => hopened s uri

/-- What has been seen is what is there. -/
theorem Reaches.events {c : Context} {log : Log} (h : supply.Reaches settings c log)
    {opened : Settings → String → List String}
    (hopened : ∀ s uri, (supply.loaded s uri).2.events
      = (opened s uri).flatMap Loader.diagnostics) : log.events = c.announced opened := by
  rcases h with ⟨rfl, rfl⟩ | ⟨r, rfl, rfl⟩
  · have hnone : (supply.gathered settings).frozenTiers = [] :=
      Level.filterMap_planned settings.fallbacks
    unfold Context.announced
    rw [hnone, gathered_uris, flatMap_loaded_events hopened]
    rfl
  · unfold Context.announced
    rw [frozenAt_frozenTiers, List.flatMap_map]
    refine Eq.trans ?_ (List.append_nil _).symm
    unfold Log.events
    rw [List.filterMap_flatMap]
    refine List.flatMap_congr fun s _ => ?_
    show Log.events (supply.tierLog s) = _
    unfold tierLog
    rw [Log.events_append]
    exact congrArg (· ++ [Event.ready]) (flatMap_loaded_events hopened s)

/-- The tiers that are frozen are the first ones, all with all resources. -/
theorem Reaches.tiers {c : Context} {log : Log} (h : supply.Reaches settings c log) :
    c.frozenTiers.map Tier.settings = settings.tails.take c.frozenTiers.length
      ∧ ∀ tier ∈ c.frozenTiers, tier.uris = c.uris := by
  rcases h with ⟨rfl, -⟩ | ⟨r, rfl, -⟩
  · have hnone : (supply.gathered settings).frozenTiers = [] :=
      Level.filterMap_planned settings.fallbacks
    rw [hnone]
    exact ⟨rfl, fun tier htier => absurd htier List.not_mem_nil⟩
  · rw [frozenAt_frozenTiers, List.map_map, List.length_map, List.length_take]
    refine ⟨?_, fun tier htier => ?_⟩
    · rw [← List.take_eq_take_min]
      exact List.map_id _
    · obtain ⟨s, -, rfl⟩ := List.mem_map.1 htier
      rfl

end Supply

namespace Context

/-- What runs of a context with these settings announce, from the start. -/
structure Announcing (around : Surroundings) (settings : Settings) : Prop where
  /-- In an orderly run, tier by tier, the syntax errors of the texts that are
  opened for its resources, one resource after the other, and then the tier.
  Loads that fail open nothing. -/
  orderly : ∀ (world : World) (texts : List String), world.store.Holds texts →
    around.importDepth = world.store.importDepth →
    ∀ ss, Orderly world (new around settings) ss →
      let run := (new around settings).steps world ss
      let c := run.1.1
      ∃ opened : Settings → String → List String,
        (∀ s uri,
          (∀ found, (around.loader s).Opens world.store.read [] uri found ↔ opened s uri = found)
          ∧ (opened s uri = []
            ↔ ∃ failure, (around.loader s).loaded world.store.read uri = .error failure))
        ∧ run.2.events = c.announced opened
        ∧ c.frozenTiers.map Tier.settings = settings.tails.take c.frozenTiers.length
        ∧ ∀ tier ∈ c.frozenTiers, tier.uris = c.uris
  /-- The syntax errors of a text are in the order of the text. -/
  inOrder : ∀ text, ((Resource.salvage text).errors.map fun e =>
    e.position.offset text.toList).Pairwise (· < ·)
  /-- In every run, as many tiers as are frozen. -/
  ready : ∀ history,
    ((new around settings).seen history).events.count .ready
      = ((new around settings).after history).frozenTiers.length
  /-- Steps that are refused announce nothing. -/
  refused : ∀ history world s e, s.asks = false →
    (((new around settings).after history).step world s).1.2 = .refused e →
    (((new around settings).after history).step world s).2 = []
  /-- Neither do questions for which no tier has to be frozen. -/
  silent : ∀ history world s, s.asks = true →
    let c := (new around settings).after history
    (c.step world s).1.1.frozenTiers.length = c.frozenTiers.length → (c.step world s).2 = []

/-- Syntax errors and tiers are announced in the order in which they come up,
each once. -/
theorem announcing (around : Surroundings) (settings : Settings) :
    Announcing around settings where
  orderly world texts hstore hdepth ss horderly := by
    intro run c
    have hopens : ∀ s uri, ∃ opened, (around.loader s).Opens world.store.read [] uri opened
        ∧ (((around.loader s).load uri).run world.store.read).2.events
          = opened.flatMap Loader.diagnostics
        ∧ (opened = [] ↔ ∃ failure, (around.loader s).loaded world.store.read uri = .error failure) := by
      intro s uri
      unfold Surroundings.loader
      rw [hdepth]
      exact Loader.load_opens hstore around.path s.locale s.schemes uri
    choose opened hopened hevents hfails using hopens
    let supply : Supply := ⟨world.store.read, around, []⟩
    obtain ⟨uris, hreaches⟩ := Supply.steps_gathered settings ss supply rfl horderly
    obtain ⟨htiers, huris⟩ := hreaches.tiers
    have honly : ∀ s uri found,
        (around.loader s).Opens world.store.read [] uri found ↔ opened s uri = found := by
      intro s uri found
      refine ⟨(hopened s uri).unique, ?_⟩
      rintro rfl
      exact hopened s uri
    exact ⟨opened, fun s uri => ⟨honly s uri, hfails s uri⟩, hreaches.events hevents, htiers, huris⟩
  inOrder := Resource.salvage_errors_later
  ready history := by
    have hseen := seen_readies (new around settings) history
    rw [new_frozenTiers, List.length_nil, Nat.zero_add] at hseen
    exact hseen
  refused history world s e hasks hanswer := by
    obtain ⟨htidy, hcontext⟩ := InPlace.after_mirrors (InPlace.new_tidy around settings) history
    have hnew : (InPlace.new around settings).context = new around settings := rfl
    rw [← hnew, ← hcontext] at hanswer ⊢
    rw [htidy.step_refused hasks hanswer]
  silent history world s hasks := by
    intro c hsame
    have hcounts := question_counts c world hasks
    have hcount := hcounts.count
    exact hcounts.silent (by omega)

end Context

/-! ## §7. Two locales, and a question for the second one. -/

namespace Letterbox

open Phrasebook.Context

/-- An import leads back, and part of a text cannot be read. -/
def memory : Memory :=
  [("fr", .ok "<a \"lettre\"> <1> import(\"l10n:letters\")"), ("en", .ok "<a \"letter\">")]

def world : World where
  store := memory.store
  pace := Pace.prompt
  hasRuntime := false

def around : Surroundings where
  path := id
  importDepth := memory.store.importDepth
  globals := []
  host _ _ _ := .ok .absent

def settings : Settings where
  locales := ["fr", "en"]
  schemes := ["\x7b\x7blocale\x7d\x7d"]
  loadTimeout := 30000

def steps : List Step :=
  ["l10n:letters"].map .add ++ .freezeNow :: [.ids 1, .freezeNow, .add "l10n:late"]

/-- Both tiers are announced, the second one when it is needed, and what is
refused is not. -/
theorem letters_are_announced :
    Orderly world (new around settings) steps
      ∧ ((new around settings).steps world steps).1.1.frozenTiers.length = 2
      ∧ ∃ opened, ((new around settings).steps world steps).2.events
        = ((new around settings).steps world steps).1.1.announced opened := by
  have horderly : Orderly world (new around settings) steps :=
    orderly_adds world around settings _ fun uri huri => by
      simp only [List.mem_cons, reduceCtorEq, List.not_mem_nil, or_self] at huri
  obtain ⟨opened, -, hevents, -⟩ :=
    (announcing around settings).orderly world _ memory.holds rfl steps horderly
  refine ⟨horderly, ?_, opened, hevents⟩
  let supply : Supply := ⟨world.store.read, around, ["l10n:letters"]⟩
  have hrun := supply.steps_new rfl settings [.ids 1, .freezeNow, .add "l10n:late"]
  rw [show (new around settings).steps world steps = _ from hrun, Supply.frozenAt_frozenTiers]
  rfl

end Letterbox

end Phrasebook
