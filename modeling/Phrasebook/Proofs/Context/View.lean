/-
  Phrasebook.Proofs.Context.View
  ────────────────────────────────
  **THE TIERS THAT A CONTEXT STANDS FOR.**

  A level that is only planned already stands for a tier: the one it would be
  built as.  Steps build levels, and answer as if all were built; what the
  levels stand for changes only as long as none of them is built:

      Level.tiers, Context.tiersFrom
                      —  what levels stand for, and what a context does from a
                         level on
      Level.Keeps     —  the levels stay as they are, or are fixed
      step_answer     —  the answer to a question, from the tiers
      step_cases      —  what a step does to the context, whatever it is
-/
import Phrasebook.Proofs.Context.Lazy
import Phrasebook.Proofs.Load.Expansion

namespace Phrasebook

open Phrasebook.Eager

/-! ## §1. The tiers of levels. -/

section

variable (answers : String → Reading) (around : Surroundings)

/-- The tiers of the levels below one with these resources; those that are
missing, as they would be built. -/
def Level.tiers : (uris : List String) → List Level → List Tier
  | _, [] => []
  | uris, level :: levels =>
    match ((level.tier around uris).run answers).1 with
    | none => []
    | some tier => tier :: tiers tier.uris levels

/-- Below any resources, the new levels stand for what the old ones do, or
for what those do below these resources. -/
def Level.Keeps (uris : List String) (old new : List Level) : Prop :=
  ∀ others, Level.tiers answers around others new = Level.tiers answers around others old
    ∨ Level.tiers answers around others new = Level.tiers answers around uris old

end

section

variable {answers : String → Reading} {around : Surroundings}

theorem Level.tiers_missing {level : Level} {uris : List String}
    (h : ((level.tier around uris).run answers).1 = none) (levels : List Level) :
    Level.tiers answers around uris (level :: levels) = [] := by
  rw [Level.tiers, h]

theorem Level.tiers_cons {level : Level} {uris : List String} {tier : Tier}
    (h : ((level.tier around uris).run answers).1 = some tier) (levels : List Level) :
    Level.tiers answers around uris (level :: levels)
      = tier :: Level.tiers answers around tier.uris levels := by
  rw [Level.tiers, h]

/-- A level that is built stands for its tier below any resources. -/
theorem Level.tiers_built (tier : Tier) (uris : List String) (levels : List Level) :
    Level.tiers answers around uris (.built tier :: levels)
      = tier :: Level.tiers answers around tier.uris levels :=
  Level.tiers_cons rfl levels

theorem Level.Keeps.here {uris : List String} {old new : List Level}
    (h : Level.Keeps answers around uris old new) :
    Level.tiers answers around uris new = Level.tiers answers around uris old :=
  (h uris).elim id id

end

/-! ## §2. What is done with a chain. -/

/-- What is done with a chain, in terms of the tiers it stands for. -/
structure Chain.Shows {α : Type} (answers : String → Reading) (around : Surroundings)
    (act : Chain → Errand (Chain × α)) (result : List Tier → Option α) : Prop where
  result_nil : result [] = none
  run : ∀ tier levels, ∃ below a,
    ((act ⟨tier, levels⟩).run answers).1 = (⟨tier, below⟩, a)
      ∧ result (tier :: Level.tiers answers around tier.uris levels) = some a
      ∧ Level.Keeps answers around tier.uris levels below

section

variable {answers : String → Reading} {around : Surroundings} {α : Type}
  {act : Chain → Errand (Chain × α)} {result : List Tier → Option α}

/-- Going down builds the first level, so the levels are fixed. -/
theorem Level.atDepth_shows (h : Chain.Shows answers around act result) (levels : List Level) :
    ∀ n uris, ∃ below,
      ((Level.atDepth around act n uris levels).run answers).1
          = (below, result ((Level.tiers answers around uris levels).drop n))
        ∧ ∀ others, Level.tiers answers around others below
            = Level.tiers answers around uris levels := by
  -- by induction on the levels: what is asked is only further down, or here
  induction levels with
  | nil =>
    intro n uris
    refine ⟨[], ?_, fun _ => rfl⟩
    rw [Level.tiers, List.drop_nil, h.result_nil]
    cases n <;> rfl
  | cons level levels ih =>
    intro n uris
    rw [Level.atDepth, Errand.run_bind_fst]
    cases htier : ((level.tier around uris).run answers).1 with
    | none =>
      -- a level that cannot be built ends the chain
      rw [Level.tiers_missing htier, List.drop_nil, h.result_nil]
      exact ⟨[], rfl, fun _ => rfl⟩
    | some tier =>
      rw [Level.tiers_cons htier]
      cases n with
      | zero =>
        obtain ⟨below, a, hrun, ha, hkeeps⟩ := h.run tier levels
        refine ⟨.built tier :: below, ?_, fun others => ?_⟩
        · dsimp only
          rw [Errand.run_bind_fst, hrun, List.drop_zero, ha]
          rfl
        · rw [Level.tiers_built, hkeeps.here]
      | succ n =>
        obtain ⟨below, hrun, hfixed⟩ := ih n tier.uris
        refine ⟨.built tier :: below, ?_, fun others => ?_⟩
        · dsimp only
          rw [Errand.run_bind_fst, hrun, List.drop_succ_cons]
          rfl
        · rw [Level.tiers_built, hfixed]

/-- What only looks at a tier builds nothing. -/
theorem Chain.look_shows (look : Tier → α) :
    Chain.Shows answers around (fun chain => pure (chain, look chain.tier))
      fun ts => ts.head?.map look where
  result_nil := rfl
  run tier levels := ⟨levels, look tier, rfl, rfl, fun _ => .inl rfl⟩

/-- A search comes to the first tier that has the entity. -/
theorem Chain.searchFrom_shows (id : String) (levels : List Level) : ∀ tier : Tier,
    ∃ below f, ((Chain.searchFrom around id tier levels).run answers).1 = (f, below)
      ∧ finding id (tier :: Level.tiers answers around tier.uris levels) = some f
      ∧ Level.Keeps answers around tier.uris levels below := by
  induction levels with
  | nil =>
    intro tier
    cases h : tier.publicEntity? id with
    | some e =>
      rw [Chain.searchFrom_found h]
      exact ⟨[], _, rfl, finding_found h _, fun _ => .inl rfl⟩
    | none =>
      rw [Chain.searchFrom_last h]
      exact ⟨[], _, rfl, finding_last h, fun _ => .inl rfl⟩
  | cons level levels ih =>
    intro tier
    cases h : tier.publicEntity? id with
    | some e =>
      rw [Chain.searchFrom_found h]
      exact ⟨level :: levels, _, rfl, finding_found h _, fun _ => .inl rfl⟩
    | none =>
      -- a search that misses goes on at the next level, which is built then
      rw [Chain.searchFrom_next h, Errand.run_bind_fst]
      cases htier : ((level.tier around tier.uris).run answers).1 with
      | none =>
        refine ⟨[], .missed tier, rfl, ?_, fun _ => .inr ?_⟩
        · rw [Level.tiers_missing htier]
          exact finding_last h
        · rw [Level.tiers_missing htier]
          rfl
      | some next =>
        obtain ⟨below, f, hrun, hf, hkeeps⟩ := ih next
        refine ⟨.built next :: below, f, ?_, ?_, fun _ => .inr ?_⟩
        · dsimp only
          rw [Errand.run_bind_fst, hrun]
          rfl
        · rw [Level.tiers_cons htier, finding_next h]
          exact hf
        · rw [Level.tiers_built, Level.tiers_cons htier, hkeeps.here]

theorem Chain.lookup_shows (id : String) (question : Context.Question α) :
    Chain.Shows answers around (Chain.lookup around id question)
      fun ts => (finding id ts).map fun f => f.answer around.host id question where
  result_nil := rfl
  run tier levels := by
    obtain ⟨below, f, hrun, hf, hkeeps⟩ := Chain.searchFrom_shows id levels tier
    refine ⟨below, f.answer around.host id question, ?_, ?_, hkeeps⟩
    · unfold Chain.lookup Chain.search
      rw [Errand.run_bind_fst, Errand.run_bind_fst, hrun]
      rfl
    · rw [hf]
      rfl

end

/-! ## §3. Contexts. -/

/-- The same step, put to the first level there is. -/
def Step.atTop : Step → Step
  | .summary _ => .summary 0
  | .ids _ => .ids 0
  | .get _ id data => .get 0 id data
  | .getAttribute _ id name data => .getAttribute 0 id name data
  | .getAttributes _ id data => .getAttributes 0 id data
  | .getEntity _ id data => .getEntity 0 id data
  | s => s

/-- Does the step register a resource? -/
def Step.registers : Step → Bool
  | .add _ | .addPending _ => true
  | _ => false

/-- Is the step a question? -/
def Step.asks : Step → Bool
  | .add _ | .addPending _ | .freeze | .freezeNow => false
  | _ => true

/-- A step that is not a question registers a resource or freezes. -/
@[elab_as_elim]
theorem Step.change_cases {motive : (s : Step) → s.asks = false → Prop}
    (add : ∀ uri, motive (.add uri) rfl) (addPending : ∀ uri, motive (.addPending uri) rfl)
    (freeze : motive .freeze rfl) (freezeNow : motive .freezeNow rfl) :
    ∀ s hasks, motive s hasks
  | .add uri, _ => add uri
  | .addPending uri, _ => addPending uri
  | .freeze, _ => freeze
  | .freezeNow, _ => freezeNow

namespace Context

variable {answers : String → Reading} {c : Context}

variable (answers c) in
/-- The tiers that a context stands for, from a level on.  There are none if
there is no such level, or nothing is frozen there. -/
def tiersFrom : (level : Nat) → List Tier
  | 0 =>
    match c.stage with
    | .collecting _ => []
    | .frozen tier => tier :: Level.tiers answers c.around tier.uris c.below
  | n + 1 => (Level.tiers answers c.around c.uris c.below).drop n

variable (answers) in
/-- The next context differs in what is built for its levels at most; and in
that, not any more once a step is put below. -/
structure Builds (c : Context) (level : Nat) (next : Context) : Prop where
  around : next.around = c.around
  settings : next.settings = c.settings
  stage : next.stage = c.stage
  keeps : Level.Keeps answers c.around c.uris c.below next.below
  fixed : 0 < level → ∀ others, Level.tiers answers c.around others next.below
    = Level.tiers answers c.around c.uris c.below

theorem Builds.refl (c : Context) : c.Builds answers 0 c where
  around := rfl
  settings := rfl
  stage := rfl
  keeps _ := .inl rfl
  fixed h := absurd h (Nat.lt_irrefl 0)

theorem Builds.uris {level : Nat} {next : Context} (h : c.Builds answers level next) :
    next.uris = c.uris := by
  unfold Context.uris
  rw [h.stage]

theorem Builds.isFrozen {level : Nat} {next : Context} (h : c.Builds answers level next) :
    next.isFrozen = c.isFrozen := by
  unfold Context.isFrozen
  rw [h.stage]

theorem exists_frozen (h : c.isFrozen = true) : ∃ tier, c.stage = .frozen tier := by
  unfold isFrozen at h
  cases hs : c.stage with
  | frozen tier => exact ⟨tier, rfl⟩
  | collecting resources =>
    rw [hs] at h
    exact nomatch h

theorem isFrozen_of {tier : Tier} (hs : c.stage = .frozen tier) : c.isFrozen = true := by
  unfold isFrozen
  rw [hs]

theorem uris_frozen {tier : Tier} (hs : c.stage = .frozen tier) : c.uris = tier.uris := by
  unfold uris
  rw [hs]

theorem tiersFrom_frozen {tier : Tier} (hs : c.stage = .frozen tier) :
    c.tiersFrom answers 0 = tier :: Level.tiers answers c.around c.uris c.below := by
  simp only [tiersFrom, hs, uris_frozen hs]

section

variable {α : Type} {act : Chain → Errand (Chain × α)} {result : List Tier → Option α}

variable (answers) in
/-- What is done at a level that may be asked. -/
theorem atLevel_shows (h : Chain.Shows answers c.around act result) {level : Nat}
    (hopen : c.isFrozen = true ∨ 0 < level) :
    ∃ next, ((c.atLevel level act).run answers).1
        = (next, (result (c.tiersFrom answers level)).map .ok)
      ∧ c.Builds answers level next := by
  cases level with
  | zero =>
    obtain ⟨tier, hs⟩ := exists_frozen (hopen.resolve_right (Nat.lt_irrefl 0))
    obtain ⟨below, a, hrun, ha, hkeeps⟩ := h.run tier c.below
    rw [← uris_frozen hs] at ha hkeeps
    refine ⟨{ c with below }, ?_, rfl, rfl, rfl, hkeeps, fun h => absurd h (Nat.lt_irrefl 0)⟩
    rw [atLevel_frozen hs, Errand.run_bind_fst, hrun, tiersFrom_frozen hs, ha]
    show (({ c with stage := .frozen tier, below := below } : Context), _) = _
    rw [← hs]
    rfl
  | succ n =>
    obtain ⟨below, hrun, hfixed⟩ := Level.atDepth_shows h c.below n c.uris
    refine ⟨{ c with below }, ?_, rfl, rfl, rfl, fun others => .inr (hfixed others), fun _ => hfixed⟩
    unfold atLevel
    rw [Errand.run_bind_fst, hrun]
    rfl

end

/-! ## §4. Steps. -/

theorem asking_shows {α : Type} {world : World} (make : α → Answer)
    {errand : Errand (Context × Option (Except ContextError α))} {next : Context}
    {answer : Option (Except ContextError α)}
    (h : (errand.run world.store.read).1 = (next, answer)) :
    (step.asking world make errand).1 = (next, answerOf make answer) := by
  show (((errand.run world.store.read).1).1, answerOf make ((errand.run world.store.read).1).2) = _
  rw [h]

/-- A lookup at a level that may be asked. -/
theorem asking_ask_shows {α : Type} (world : World) (make : α → Answer) (id : String)
    (question : Question α) {level : Nat} (hopen : c.isFrozen = true ∨ 0 < level) :
    ∃ next, (step.asking world make (c.ask level id question)).1
        = (next, answerOf make
          (Eager.ask c.around.host (c.tiersFrom world.store.read level) 0 id question))
      ∧ c.Builds world.store.read level next := by
  obtain ⟨next, hrun, hbuilds⟩ := atLevel_shows world.store.read
    (Chain.lookup_shows id question) hopen
  refine ⟨next, asking_shows make ?_, hbuilds⟩
  unfold ask
  rw [Errand.run_bind_fst, hrun, ask_eq_finding, List.drop_zero]
  cases finding id (c.tiersFrom world.store.read level) with
  | none => rfl
  | some f =>
    simp only [Option.map_some]
    cases f.answer c.around.host id question <;> rfl

/-- A frozen context refuses every step that is not a question. -/
theorem step_frozen {tier : Tier} (hs : c.stage = .frozen tier) (world : World) {s : Step}
    (hasks : s.asks = false) : c.step world s = ((c, .refused .alreadyFrozen), []) := by
  cases s, hasks using Step.change_cases with
  | add uri =>
    simp only [step, step.changing, add, hs]
    rfl
  | addPending uri =>
    simp only [step, addPending, hs]
    rfl
  | freeze =>
    simp only [step, freeze, hs]
    rfl
  | freezeNow =>
    simp only [step, step.changing, freezeNow, hs]
    rfl

variable (c) in
/-- A step that may be asked is answered as its tiers say, and builds some of
them at most. -/
theorem step_shows (world : World) (s : Step) (hopen : c.isFrozen = true ∨ 0 < s.level) :
    ∃ next, (c.step world s).1
        = (next, Eager.answer c.around.host (c.tiersFrom world.store.read s.level) s.atTop)
      ∧ c.Builds world.store.read s.level next := by
  have hfrozen : s.level = 0 → ∃ tier, c.stage = .frozen tier := fun hlevel =>
    exists_frozen (hopen.resolve_right (by omega))
  cases s with
  | add _ | addPending _ | freeze | freezeNow =>
    obtain ⟨tier, hs⟩ := hfrozen rfl
    exact ⟨c, congrArg Prod.fst (step_frozen hs world rfl), .refl c⟩
  | summary level =>
    obtain ⟨next, hrun, hbuilds⟩ := atLevel_shows world.store.read
      (Chain.look_shows Summary.ofTier) hopen
    have hsummary : ((c.summary level).run world.store.read).1
        = (next, (c.tiersFrom world.store.read level).head?.map Summary.ofTier) := by
      unfold summary
      rw [Errand.run_bind_fst]
      dsimp only [Step.level] at hrun
      rw [hrun]
      cases (c.tiersFrom world.store.read level).head? <;> rfl
    refine ⟨next, ?_, hbuilds⟩
    show (((c.summary level).run world.store.read).1.1,
      (((c.summary level).run world.store.read).1.2.map Answer.summary).getD .noLevel) = _
    rw [hsummary, List.head?_eq_getElem?, Option.map_map]
    rfl
  | ids level =>
    obtain ⟨next, hrun, hbuilds⟩ := atLevel_shows world.store.read
      (Chain.look_shows Tier.publicIds) hopen
    have hids : (c.step world (.ids level)).1 = _ := asking_shows .names hrun
    refine ⟨next, ?_, hbuilds⟩
    rw [hids, List.head?_eq_getElem?, Option.map_map]
    rfl
  | get level id data => exact asking_ask_shows world .text id _ hopen
  | getAttribute level id name data => exact asking_ask_shows world .value id _ hopen
  | getAttributes level id data => exact asking_ask_shows world .attributes id _ hopen
  | getEntity level id data => exact asking_ask_shows world .entity id _ hopen

theorem step_answer (c : Context) (world : World) (s : Step)
    (hopen : c.isFrozen = true ∨ 0 < s.level) :
    (c.step world s).1.2
      = Eager.answer c.around.host (c.tiersFrom world.store.read s.level) s.atTop := by
  obtain ⟨next, hstep, -⟩ := step_shows c world s hopen
  rw [hstep]

theorem step_builds (c : Context) (world : World) (s : Step)
    (hopen : c.isFrozen = true ∨ 0 < s.level) :
    c.Builds world.store.read s.level (c.step world s).1.1 := by
  obtain ⟨next, hstep, hbuilds⟩ := step_shows c world s hopen
  rwa [hstep]

/-! ## §5. Steps of a context that collects. -/

/-- What a step of a context that collects may do: nothing to the levels
below, and nothing to the resources but to register some. -/
structure Collects (c : Context) (s : Step) (next : Context) : Prop where
  around : next.around = c.around
  below : next.below = c.below
  uris : c.uris <+: next.uris
  kept : s.registers = false → next.uris = c.uris

theorem Collects.refl (c : Context) (s : Step) : c.Collects s c :=
  ⟨rfl, rfl, List.prefix_refl _, fun _ => rfl⟩

theorem register_collects {uri : String} {result : Option Loader.Loaded} {next : Context} {s : Step}
    (hs : s.registers = true) (h : c.register uri result = .ok next) : c.Collects s next := by
  unfold register at h
  cases hstage : c.stage with
  | frozen tier =>
    rw [hstage] at h
    exact nomatch h
  | collecting resources =>
    rw [hstage] at h
    obtain rfl := Except.ok.inj h
    refine ⟨rfl, rfl, ?_, fun hnot => absurd hs (by rw [hnot]; exact nofun)⟩
    unfold uris
    rw [hstage]
    dsimp only
    rw [List.map_append]
    exact List.prefix_append _ _

/-- A tier has the resources of its context. -/
theorem settle_collects (loads : List Loader.Loaded) (s : Step) :
    (c.settle loads).Always fun result => ∀ next, result = .ok next → c.Collects s next := by
  unfold settle
  cases htier : Tier.ofLoads c.around c.settings c.uris loads with
  | error e => exact fun next hnext => nomatch hnext
  | ok tier =>
    intro next hnext
    obtain rfl := Except.ok.inj hnext
    have huris : tier.uris = c.uris := by
      unfold Tier.ofLoads at htier
      split at htier
      · exact nomatch htier
      · rw [← Except.ok.inj htier]
    exact ⟨rfl, rfl, huris ▸ List.prefix_refl _, fun _ => huris⟩

theorem changed_collects {s : Step} {result : Except ContextError Context}
    (h : ∀ next, result = .ok next → c.Collects s next) : c.Collects s (c.changed result).1 := by
  cases result with
  | ok next => exact h next rfl
  | error e => exact .refl c s

variable (c) in
/-- What a context that collects answers to a question. -/
def unanswered : Step → Answer
  | .summary _ => .summary ⟨false, c.settings, []⟩
  | _ => .refused .notFrozen

theorem unanswered_eq {s : Step} (h : ∀ level, s ≠ .summary level) :
    c.unanswered s = .refused .notFrozen := by
  unfold unanswered
  split
  · next level => exact absurd rfl (h level)
  · rfl

/-- A question to a context that collects changes nothing, and nothing is seen
of it. -/
theorem step_asks {resources : List Registration} (hs : c.stage = .collecting resources)
    (world : World) {s : Step} (hasks : s.asks = true) (hlevel : s.level = 0) :
    c.step world s = ((c, c.unanswered s), []) := by
  have hrun : ∀ {α : Type} {act : Chain → Errand (Chain × α)},
      (c.atLevel 0 act).run world.store.read = ((c, some (.error .notFrozen)), []) := by
    intro α act
    rw [atLevel_collecting hs]
    rfl
  have hasking : ∀ {α : Type} (make : α → Answer)
      {errand : Errand (Context × Option (Except ContextError α))},
      errand.run world.store.read = ((c, some (.error .notFrozen)), []) →
      step.asking world make errand = ((c, .refused .notFrozen), []) := by
    intro α make errand herrand
    unfold step.asking
    rw [herrand]
    rfl
  have hask : ∀ {α : Type} (id : String) (question : Question α),
      (c.ask 0 id question).run world.store.read = ((c, some (.error .notFrozen)), []) :=
    fun _ _ => Errand.run_bind_eq hrun rfl
  cases s with
  | add _ | addPending _ | freeze | freezeNow => exact nomatch hasks
  | summary level =>
    obtain rfl : level = 0 := hlevel
    have hsummary : (c.summary 0).run world.store.read
        = ((c, some ⟨false, c.settings, []⟩), []) := Errand.run_bind_eq hrun rfl
    simp only [step, hsummary]
    rfl
  | ids level =>
    obtain rfl : level = 0 := hlevel
    exact hasking .names hrun
  | get level id data =>
    obtain rfl : level = 0 := hlevel
    exact hasking .text (hask id _)
  | getAttribute level id name data =>
    obtain rfl : level = 0 := hlevel
    exact hasking .value (hask id _)
  | getAttributes level id data =>
    obtain rfl : level = 0 := hlevel
    exact hasking .attributes (hask id _)
  | getEntity level id data =>
    obtain rfl : level = 0 := hlevel
    exact hasking .entity (hask id _)

theorem step_collects (world : World) {s : Step} (hopen : c.isFrozen = false)
    (hlevel : s.level = 0) : c.Collects s (c.step world s).1.1 := by
  obtain ⟨resources, hs⟩ := exists_collecting hopen
  cases hasks : s.asks with
  | true =>
    rw [step_asks hs world hasks hlevel]
    exact .refl c s
  | false =>
    cases s, hasks using Step.change_cases with
    | add uri =>
      have hadd : (c.add uri).Always fun result => ∀ next, result = .ok next →
          c.Collects (.add uri) next := by
        unfold add
        rw [hs]
        exact .bind (.trivial _) fun _ _ next hnext => register_collects rfl hnext
      exact changed_collects (hadd.run world.store.read)
    | addPending uri =>
      refine changed_collects fun next hnext => ?_
      unfold addPending at hnext
      rw [hs] at hnext
      dsimp only at hnext
      split at hnext
      · exact register_collects rfl hnext
      · exact nomatch hnext
    | freeze =>
      have hfreeze : ∀ next, (c.freeze world.store.read world.pace).1 = .ok next →
          c.Collects .freeze next := by
        intro next hnext
        unfold freeze at hnext
        rw [hs] at hnext
        exact (settle_collects _ _).run world.store.read next hnext
      exact changed_collects hfreeze
    | freezeNow =>
      have hfreeze : c.freezeNow.Always fun result => ∀ next, result = .ok next →
          c.Collects .freezeNow next := by
        unfold freezeNow
        rw [hs]
        dsimp only
        split
        · exact settle_collects _ _
        · exact fun next hnext => nomatch hnext
      exact changed_collects (hfreeze.run world.store.read)

/-! ## §6. Steps and histories. -/

/-- What a step can do: it builds some of the levels at most, or the context
collects. -/
theorem step_cases (c : Context) (world : World) (s : Step) :
    c.Builds world.store.read s.level (c.step world s).1.1
      ∨ c.Collects s (c.step world s).1.1 := by
  by_cases hopen : c.isFrozen = true ∨ 0 < s.level
  · exact .inl (step_builds c world s hopen)
  · have hcollecting : c.isFrozen = false := by
      rw [← Bool.not_eq_true]
      exact fun hfrozen => hopen (.inl hfrozen)
    exact .inr (step_collects world hcollecting (by omega))

theorem after_append (c : Context) (first later : List (World × Step)) :
    c.after (first ++ later) = (c.after first).after later :=
  List.foldl_append

theorem after_around (c : Context) (history : List (World × Step)) :
    (c.after history).around = c.around := by
  induction history generalizing c with
  | nil => rfl
  | cons first history ih =>
    have hstep : (c.step first.1 first.2).1.1.around = c.around :=
      (step_cases c first.1 first.2).elim Builds.around Collects.around
    exact (ih _).trans hstep

/-- No step takes a resource back, and only some steps register one. -/
theorem after_uris (c : Context) (history : List (World × Step)) :
    c.uris <+: (c.after history).uris
      ∧ ((∀ h ∈ history, h.2.registers = false) → (c.after history).uris = c.uris) := by
  induction history generalizing c with
  | nil => exact ⟨List.prefix_refl _, fun _ => rfl⟩
  | cons first history ih =>
    obtain ⟨hlater, hsame⟩ := ih (c.step first.1 first.2).1.1
    have hfirst : c.uris <+: (c.step first.1 first.2).1.1.uris
        ∧ (first.2.registers = false → (c.step first.1 first.2).1.1.uris = c.uris) := by
      rcases step_cases c first.1 first.2 with h | h
      · rw [h.uris]
        exact ⟨List.prefix_refl _, fun _ => rfl⟩
      · exact ⟨h.uris, h.kept⟩
    refine ⟨hfirst.1.trans hlater, fun hnone => ?_⟩
    have hkept := hfirst.2 (hnone first List.mem_cons_self)
    exact (hsame fun h hh => hnone h (List.mem_cons_of_mem _ hh)).trans hkept

end Context

end Phrasebook
