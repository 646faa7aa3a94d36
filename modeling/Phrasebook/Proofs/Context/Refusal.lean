/-
  Phrasebook.Proofs.Context.Refusal
  ────────────────────────────────
  **REFUSED STEPS CHANGE NOTHING.**

  A context may also be one record that every step changes in place.  A freeze
  then takes the resources out of it, records the failures of their loads and
  sees what it sees, before it knows whether what was loaded can be defined.
  Nothing is lost by that:

      InPlace        —  the record, and its steps
      Tidy           —  the invariant: resources are there until they are
                        taken, failures from then on
      step_mirrors   —  every step does to the record what it does to a context
      refused_cases  —  why a step may be refused; it is as if it had not been
                        done
      freezing_is_one_way
                     —  what that says of every history
-/
import Phrasebook.Proofs.Context.View

namespace Phrasebook

/-! ## §1. A record that is changed in place. -/

/-- A context that is changed in place, and what has been seen of it. -/
structure InPlace where
  around : Surroundings
  settings : Settings
  /-- What has been registered and not been taken. -/
  resources : List Registration
  /-- What has been registered. -/
  uris : List String
  /-- The failures that have been recorded. -/
  failures : List LoadFailure
  /-- The definitions and the globals, once they are frozen. -/
  frozen : Option (Registry × Bindings)
  below : List Level
  log : Log

namespace InPlace

/-- A record without resources. -/
def new (around : Surroundings) (settings : Settings) : InPlace where
  around
  settings
  resources := []
  uris := []
  failures := []
  frozen := none
  below := Level.below settings
  log := []

/-- The context that a record stands for. -/
def context (p : InPlace) : Context where
  around := p.around
  settings := p.settings
  stage :=
    match p.frozen with
    | none => .collecting p.resources
    | some (registry, globals) => .frozen ⟨p.settings, p.uris, registry, globals, p.failures⟩
  below := p.below

/-- More is seen. -/
def see (p : InPlace) (log : Log) : InPlace :=
  { p with log := p.log ++ log }

/-- One more resource is registered. -/
def register (p : InPlace) (uri : String) (result : Option Loader.Loaded) : InPlace :=
  { p with uris := p.uris ++ [uri], resources := p.resources ++ [⟨uri, result⟩] }

/-- The resources are taken out. -/
def take (p : InPlace) : InPlace :=
  { p with resources := [] }

/-- What came of a load is put behind the entries before it, or recorded. -/
def collect : InPlace × List Entry → Loader.Loaded → InPlace × List Entry
  | (p, entries), .ok loaded => (p, entries ++ loaded)
  | (p, entries), .error failure => ({ p with failures := p.failures ++ [failure] }, entries)

/-- Define what has been collected; that is refused at the first entry that
cannot be defined. -/
def finish : InPlace × List Entry → InPlace × Answer
  | (p, entries) =>
    match Registry.empty.addEntries entries with
    | (_, some e) => (p, .refused (.definition e))
    | (registry, none) =>
      (({ p with frozen := some (registry, p.around.tierGlobals p.settings) } : InPlace).see
        [.event .ready], .accepted)

/-- Do something while nothing is frozen. -/
def whileOpen (p : InPlace) (act : InPlace × Answer) : InPlace × Answer :=
  if p.frozen.isSome then (p, .refused .alreadyFrozen) else act

/-- Freeze what comes of loads that are over, however they ended. -/
def settle (p : InPlace) (loads : List Loader.Loaded) : InPlace × Answer :=
  finish (loads.foldl collect (p.take, []))

/-- Do a step; the record after it, and the answer.  A question finds at most
the levels below changed, by what is built for it. -/
def step (world : World) (p : InPlace) : Step → InPlace × Answer
  | .add uri => p.whileOpen <|
    let (result, log) := (p.context.loader.load uri).run world.store.read
    ((p.see log).register uri (some result), .accepted)
  | .addPending uri => p.whileOpen <|
    if world.hasRuntime then (p.register uri none, .accepted) else (p, .refused .noRuntime)
  | .freeze => p.whileOpen <|
    let (loads, work) := joinAll p.settings.loadTimeout 0
      (p.context.joinables world.store.read world.pace p.resources)
    (p.see (interleave work)).settle loads
  | .freezeNow => p.whileOpen <|
    if p.resources.any fun r => r.result.isNone then (p, .refused .pendingLoads)
    else p.settle (p.resources.map fun r => r.result.getD (.error (.aborted r.uri)))
  | question =>
    let ((next, answer), log) := p.context.step world question
    (({ p with below := next.below } : InPlace).see log, answer)

/-- A record after several steps, each in its own world. -/
def after (p : InPlace) (history : List (World × Step)) : InPlace :=
  history.foldl (fun p h => (p.step h.1 h.2).1) p

/-! ## §2. The invariant. -/

/-- The resources are there until they are taken, and failures are recorded
from then on. -/
structure Tidy (p : InPlace) : Prop where
  sound : Context.Sound p.settings p.context
  uris : p.frozen = none → p.uris = p.resources.map Registration.uri
  failures : p.frozen = none → p.failures = []
  taken : p.frozen.isSome → p.resources = []

/-- A step has done to the record what it has done to the context. -/
structure Mirrors (p : InPlace) (outcome : InPlace × Answer) (result : (Context × Answer) × Log) :
    Prop where
  context : result.1 = (outcome.1.context, outcome.2)
  log : outcome.1.log = p.log ++ result.2
  tidy : outcome.1.Tidy

variable {p : InPlace}

theorem context_open (h : p.frozen = none) : p.context.stage = .collecting p.resources := by
  unfold context
  rw [h]

theorem context_frozen {registry : Registry} {globals : Bindings}
    (h : p.frozen = some (registry, globals)) :
    p.context.stage = .frozen ⟨p.settings, p.uris, registry, globals, p.failures⟩ := by
  unfold context
  rw [h]

theorem isFrozen_context (p : InPlace) : p.context.isFrozen = p.frozen.isSome := by
  unfold Context.isFrozen
  cases h : p.frozen with
  | none => rw [context_open h]; rfl
  | some f => rw [context_frozen h]; rfl

theorem Tidy.context_uris (h : p.Tidy) : p.context.uris = p.uris := by
  unfold Context.uris
  cases hfrozen : p.frozen with
  | none => rw [context_open hfrozen]; exact (h.uris hfrozen).symm
  | some f => rw [context_frozen hfrozen]

theorem new_tidy (around : Surroundings) (settings : Settings) : (new around settings).Tidy where
  sound := Context.new_sound around settings
  uris _ := rfl
  failures _ := rfl
  taken := nofun

theorem whileOpen_open (h : p.frozen = none) (act : InPlace × Answer) : p.whileOpen act = act := by
  unfold whileOpen
  rw [h]
  rfl

theorem whileOpen_frozen (h : p.frozen.isSome) (act : InPlace × Answer) :
    p.whileOpen act = (p, .refused .alreadyFrozen) :=
  if_pos h

/-! ## §3. Registering. -/

theorem register_context (hopen : p.frozen = none) (uri : String)
    (result : Option Loader.Loaded) :
    p.context.register uri result = .ok (p.register uri result).context := by
  unfold Context.register
  rw [context_open hopen]
  unfold context register
  rw [hopen]

/-- Registering keeps the invariant. -/
theorem register_tidy (h : p.Tidy) (hopen : p.frozen = none) (uri : String)
    {result : Option Loader.Loaded} (hresult : ∀ l ∈ result, l.Definable) :
    (p.register uri result).Tidy where
  sound := Context.register_sound h.sound uri hresult (register_context hopen uri result)
  uris _ := by
    unfold register
    rw [h.uris hopen, List.map_append]
    rfl
  failures _ := h.failures hopen
  taken hfrozen := by
    have hnone : (p.register uri result).frozen = none := hopen
    rw [hnone] at hfrozen
    exact nomatch hfrozen

/-- What is seen does not matter to the invariant. -/
theorem see_tidy (h : p.Tidy) (log : Log) : (p.see log).Tidy :=
  ⟨h.sound, h.uris, h.failures, h.taken⟩

/-- A refused step leaves the record as it is. -/
theorem refused_mirrors (h : p.Tidy) (e : ContextError) :
    Mirrors p (p, .refused e) ((p.context, .refused e), []) :=
  ⟨rfl, (List.append_nil _).symm, h⟩

theorem add_mirrors (h : p.Tidy) (hopen : p.frozen = none) (world : World) (uri : String) :
    Mirrors p (p.step world (.add uri)) (p.context.step world (.add uri)) := by
  obtain ⟨result, log, hrun⟩ : ∃ result log,
    (p.context.loader.load uri).run world.store.read = (result, log) := ⟨_, _, rfl⟩
  have hdefinable : result.Definable := by
    have hload := (Loader.load_definable p.context.loader uri).run world.store.read
    rwa [hrun] at hload
  have hadd : (p.context.add uri).run world.store.read
      = (.ok ((p.see log).register uri (some result)).context, log ++ []) := by
    unfold Context.add
    rw [context_open hopen]
    refine Errand.run_bind_eq hrun ?_
    rw [register_context hopen]
    rfl
  have hplace : p.step world (.add uri)
      = ((p.see log).register uri (some result), .accepted) := by
    rw [step, whileOpen_open hopen, hrun]
  rw [hplace]
  simp only [Context.step, Context.step.changing, hadd, List.append_nil]
  refine ⟨rfl, rfl, register_tidy (see_tidy h log) hopen uri fun l hl => ?_⟩
  obtain rfl := Option.some.inj hl
  exact hdefinable

theorem addPending_mirrors (h : p.Tidy) (hopen : p.frozen = none) (world : World) (uri : String) :
    Mirrors p (p.step world (.addPending uri)) (p.context.step world (.addPending uri)) := by
  rw [step, whileOpen_open hopen, Context.step, Context.addPending, context_open hopen]
  cases world.hasRuntime with
  | false => exact refused_mirrors h .noRuntime
  | true =>
    dsimp only
    rw [if_pos rfl, if_pos rfl, register_context hopen]
    exact ⟨rfl, (List.append_nil _).symm,
      register_tidy h hopen uri fun _ hl => absurd hl (Option.not_mem_none _)⟩

/-! ## §4. Freezing. -/

/-- The record after these loads have been frozen. -/
def frozenWith (p : InPlace) (loads : List Loader.Loaded) : InPlace where
  around := p.around
  settings := p.settings
  resources := []
  uris := p.uris
  failures := Tier.loadFailures loads
  frozen := some ((Registry.empty.addEntries (Tier.loadedEntries loads)).1,
    p.around.tierGlobals p.settings)
  below := p.below
  log := p.log ++ [.event .ready]

/-- One load after the other, its entries go behind those before it, and its
failure behind those before it. -/
theorem foldl_collect (loads : List Loader.Loaded) : ∀ (p : InPlace) (entries : List Entry),
    loads.foldl collect (p, entries)
      = ({ p with failures := p.failures ++ Tier.loadFailures loads },
        entries ++ Tier.loadedEntries loads) := by
  induction loads with
  | nil =>
    intro p entries
    simp only [Tier.loadFailures, Tier.loadedEntries, List.foldl_nil, List.filterMap_nil,
      List.flatMap_nil, List.append_nil]
  | cons load loads ih =>
    intro p entries
    rw [List.foldl_cons]
    cases load with
    | ok loaded =>
      have hlater : Tier.loadedEntries (.ok loaded :: loads)
          = loaded ++ Tier.loadedEntries loads := rfl
      rw [collect, ih, hlater, List.append_assoc]
      rfl
    | error failure =>
      have hlater : Tier.loadFailures (.error failure :: loads)
          = failure :: Tier.loadFailures loads := rfl
      rw [collect, ih, hlater, List.append_assoc]
      rfl

/-- Whatever has been taken and recorded by then, what has been loaded can be
defined. -/
theorem settle_eq (hfailures : p.failures = []) {loads : List Loader.Loaded}
    (hloads : ∀ l ∈ loads, l.Definable) : p.settle loads = (p.frozenWith loads, .accepted) := by
  obtain ⟨registry, hregistry⟩ :=
    Registry.addEntries_of_definable (Tier.loadedEntries_holds hloads) Registry.empty
  unfold settle
  rw [foldl_collect, List.nil_append]
  unfold finish take frozenWith
  simp only [hregistry, hfailures, List.nil_append]
  rfl

/-- The context is frozen with the same loads. -/
theorem settle_context (h : p.Tidy) {loads : List Loader.Loaded}
    (hloads : ∀ l ∈ loads, l.Definable) (answers : String → Reading) :
    (p.context.settle loads).run answers
      = (.ok (p.frozenWith loads).context, [.event .ready]) := by
  unfold Context.settle
  rw [Tier.ofLoads_eq hloads, h.context_uris]
  rfl

theorem frozenWith_tidy (h : p.Tidy) (loads : List Loader.Loaded) : (p.frozenWith loads).Tidy where
  sound := ⟨nofun, h.sound.below⟩
  uris := nofun
  failures := nofun
  taken _ := rfl

theorem joinable_definable (h : p.Tidy) (hopen : p.frozen = none) (world : World) :
    ∀ j ∈ p.context.joinables world.store.read world.pace p.resources, j.Definable := by
  intro j hj
  obtain ⟨i, r, hr, rfl⟩ := Context.mem_joinables hj
  exact Context.joinable_definable p.context _ _ (h.sound.results _ (context_open hopen) r hr)

/-- What comes of the loads when they are joined. -/
def joined (p : InPlace) (world : World) : List Loader.Loaded × List Stretch :=
  joinAll p.settings.loadTimeout 0
    (p.context.joinables world.store.read world.pace p.resources)

/-- A freeze joins the loads of all resources, and freezes what comes of them. -/
theorem step_freeze_eq (h : p.Tidy) (hopen : p.frozen = none) (world : World) :
    p.step world .freeze
      = ((p.see (interleave (p.joined world).2)).frozenWith (p.joined world).1, .accepted) := by
  have hsettle := settle_eq (p := p.see (interleave (p.joined world).2)) (h.failures hopen)
    (joinAll_definable (joinable_definable h hopen world) p.settings.loadTimeout 0)
  rw [step, whileOpen_open hopen]
  exact hsettle

theorem freeze_mirrors (h : p.Tidy) (hopen : p.frozen = none) (world : World) :
    Mirrors p (p.step world .freeze) (p.context.step world .freeze) := by
  have hsettle := settle_context h
    (joinAll_definable (joinable_definable h hopen world) p.settings.loadTimeout 0) world.store.read
  have hfreeze : p.context.freeze world.store.read world.pace
      = (.ok (p.frozenWith (p.joined world).1).context,
        interleave (p.joined world).2 ++ [.event .ready]) := by
    unfold Context.freeze
    rw [context_open hopen]
    dsimp only
    rw [show p.context.settings = p.settings from rfl, hsettle]
    rfl
  rw [step_freeze_eq h hopen]
  simp only [Context.step, hfreeze]
  exact ⟨rfl, List.append_assoc _ _ _, frozenWith_tidy (see_tidy h _) _⟩

/-- The loads that are over, of resources none of which is pending. -/
theorem results?_of_over {resources : List Registration}
    (h : (resources.any fun r => r.result.isNone) = false) :
    Context.results? resources
      = some (resources.map fun r => r.result.getD (.error (.aborted r.uri))) := by
  induction resources with
  | nil => rfl
  | cons r resources ih =>
    rw [List.any_cons, Bool.or_eq_false_iff] at h
    obtain ⟨hr, hlater⟩ := h
    obtain ⟨result, hresult⟩ := Option.ne_none_iff_exists'.1 (mt Option.isNone_iff_eq_none.2 (by
      rw [hr]
      exact Bool.false_ne_true))
    rw [Context.results?, hresult, ih hlater, List.map_cons, hresult]
    rfl

theorem freezeNow_mirrors (h : p.Tidy) (hopen : p.frozen = none) (world : World) :
    Mirrors p (p.step world .freezeNow) (p.context.step world .freezeNow) := by
  have hstage := context_open hopen
  cases hpending : p.resources.any fun r => r.result.isNone with
  | true =>
    -- the resources are still there when a load turns out to be pending
    have hplace : p.step world .freezeNow = (p, .refused .pendingLoads) := by
      rw [step, whileOpen_open hopen, if_pos hpending]
    have hcontext : p.context.step world .freezeNow = ((p.context, .refused .pendingLoads), []) := by
      have hhas : p.context.hasPending = true := (Context.hasPending_eq hstage).trans hpending
      simp only [Context.step, Context.step.changing, Context.freezeNow_pending hstage hhas]
      rfl
    rw [hplace, hcontext]
    exact refused_mirrors h .pendingLoads
  | false =>
    have hloads : ∀ l ∈ p.resources.map fun r => r.result.getD (.error (.aborted r.uri)),
        l.Definable := by
      intro l hl
      obtain ⟨r, hr, hlr⟩ := Context.mem_of_results?_eq_some (results?_of_over hpending) l hl
      exact h.sound.results _ hstage r hr l hlr
    have hplace := settle_eq (h.failures hopen) hloads
    have hcontext := settle_context h hloads world.store.read
    rw [step, whileOpen_open hopen, hpending, if_neg Bool.false_ne_true, hplace]
    simp only [Context.step, Context.step.changing, Context.freezeNow, hstage,
      results?_of_over hpending, hcontext]
    exact ⟨rfl, rfl, frozenWith_tidy h _⟩

/-! ## §5. Every step. -/

/-- A question changes nothing but what is built. -/
theorem step_question (c : Context) (world : World) {s : Step} (hasks : s.asks = true) :
    (c.step world s).1.1 = { c with below := (c.step world s).1.1.below } := by
  by_cases hopen : c.isFrozen = true ∨ 0 < s.level
  · have hbuilds := c.step_builds world s hopen
    generalize (c.step world s).1.1 = next at hbuilds
    obtain ⟨around, settings, stage, below⟩ := next
    obtain rfl : around = c.around := hbuilds.around
    obtain rfl : settings = c.settings := hbuilds.settings
    obtain rfl : stage = c.stage := hbuilds.stage
    rfl
  · have hcollecting : c.isFrozen = false := by
      rw [← Bool.not_eq_true]
      exact fun hfrozen => hopen (.inl hfrozen)
    obtain ⟨resources, hs⟩ := Context.exists_collecting hcollecting
    rw [Context.step_asks hs world hasks (by omega)]

theorem question_eq (world : World) (p : InPlace) {s : Step} (hasks : s.asks = true) :
    p.step world s
      = (({ p with below := (p.context.step world s).1.1.below } : InPlace).see
          (p.context.step world s).2, (p.context.step world s).1.2) := by
  cases s with
  | add _ | addPending _ | freeze | freezeNow => exact nomatch hasks
  | summary _ | ids _ | get _ _ _ | getAttribute _ _ _ _ | getAttributes _ _ _
  | getEntity _ _ _ => rfl

theorem question_mirrors (h : p.Tidy) (world : World) {s : Step} (hasks : s.asks = true) :
    Mirrors p (p.step world s) (p.context.step world s) := by
  have hnext := step_question p.context world hasks
  have hsound := Context.step_sound h.sound world s
  rw [question_eq world p hasks]
  refine ⟨Prod.ext hnext rfl, rfl, ?_, h.uris, h.failures, h.taken⟩
  rw [hnext] at hsound
  exact hsound

/-- A frozen record refuses every step that is not a question. -/
theorem step_frozen (hfrozen : p.frozen.isSome) (world : World) {s : Step}
    (hasks : s.asks = false) : p.step world s = (p, .refused .alreadyFrozen) := by
  cases s, hasks using Step.change_cases <;> exact whileOpen_frozen hfrozen _

/-- Every step does to the record what it does to the context. -/
theorem step_mirrors (h : p.Tidy) (world : World) (s : Step) :
    Mirrors p (p.step world s) (p.context.step world s) := by
  cases hasks : s.asks with
  | true => exact question_mirrors h world hasks
  | false =>
    cases hfrozen : p.frozen with
    | some f =>
      have hsome : p.frozen.isSome := hfrozen ▸ rfl
      rw [step_frozen hsome world hasks, Context.step_frozen (context_frozen hfrozen) world hasks]
      exact refused_mirrors h .alreadyFrozen
    | none =>
      cases s, hasks using Step.change_cases with
      | add uri => exact add_mirrors h hfrozen world uri
      | addPending uri => exact addPending_mirrors h hfrozen world uri
      | freeze => exact freeze_mirrors h hfrozen world
      | freezeNow => exact freezeNow_mirrors h hfrozen world

/-- The record stands for the context after every history. -/
theorem after_mirrors (h : p.Tidy) (history : List (World × Step)) :
    (p.after history).Tidy ∧ (p.after history).context = p.context.after history := by
  -- by induction on the history, from any record with the invariant
  induction history generalizing p with
  | nil => exact ⟨h, rfl⟩
  | cons first history ih =>
    have hstep := step_mirrors h first.1 first.2
    obtain ⟨htidy, hcontext⟩ := ih hstep.tidy
    refine ⟨htidy, hcontext.trans ?_⟩
    show _ = ((p.context.step first.1 first.2).1.1).after history
    rw [hstep.context]

/-! ## §6. Refusals. -/

/-- Why a step that is not a question is refused. -/
inductive Refuses (world : World) (p : InPlace) : Step → ContextError → Prop where
  /-- After freezing, nothing is registered or frozen any more. -/
  | alreadyFrozen {s : Step} (hasks : s.asks = false) (h : p.frozen.isSome) :
      Refuses world p s .alreadyFrozen
  /-- What is still being loaded cannot be frozen at once. -/
  | pendingLoads {r : Registration} (h : p.frozen = none) (hr : r ∈ p.resources)
      (hresult : r.result = none) : Refuses world p .freezeNow .pendingLoads
  /-- There is nothing that could run a load later. -/
  | noRuntime {uri : String} (h : p.frozen = none) (hruntime : world.hasRuntime = false) :
      Refuses world p (.addPending uri) .noRuntime

/-- A step that is refused is as if it had not been done. -/
theorem Refuses.step {world : World} {s : Step} {e : ContextError} (h : Refuses world p s e) :
    p.step world s = (p, .refused e) := by
  cases h with
  | alreadyFrozen hasks hfrozen => exact step_frozen hfrozen world hasks
  | pendingLoads hopen hr hresult =>
    have hpending : (p.resources.any fun r => r.result.isNone) = true :=
      List.any_eq_true.2 ⟨_, hr, Option.isNone_iff_eq_none.2 hresult⟩
    rw [InPlace.step, whileOpen_open hopen, if_pos hpending]
  | noRuntime hopen hruntime =>
    rw [InPlace.step, whileOpen_open hopen, hruntime, if_neg Bool.false_ne_true]

/-- A step that is not a question is refused, or it is done; only a step that
registers nothing freezes the record. -/
theorem step_cases (h : p.Tidy) (world : World) {s : Step} (hasks : s.asks = false) :
    (∃ e, Refuses world p s e)
      ∨ (p.step world s).2 = .accepted ∧ (p.step world s).1.frozen.isSome = !s.registers := by
  cases hfrozen : p.frozen with
  | some f => exact .inl ⟨_, .alreadyFrozen hasks (hfrozen ▸ rfl)⟩
  | none =>
    cases s, hasks using Step.change_cases with
    | add uri =>
      refine .inr ?_
      rw [step, whileOpen_open hfrozen]
      exact ⟨rfl, congrArg Option.isSome hfrozen⟩
    | addPending uri =>
      cases hruntime : world.hasRuntime with
      | false => exact .inl ⟨_, .noRuntime hfrozen hruntime⟩
      | true =>
        refine .inr ?_
        rw [step, whileOpen_open hfrozen, hruntime, if_pos rfl]
        exact ⟨rfl, congrArg Option.isSome hfrozen⟩
    | freeze =>
      refine .inr ?_
      rw [step_freeze_eq h hfrozen]
      exact ⟨rfl, rfl⟩
    | freezeNow =>
      cases hpending : p.resources.any fun r => r.result.isNone with
      | true =>
        obtain ⟨r, hr, hresult⟩ := List.any_eq_true.1 hpending
        exact .inl ⟨_, .pendingLoads hfrozen hr (Option.isNone_iff_eq_none.1 hresult)⟩
      | false =>
        have haccepted := Context.freezeNow_accepted h.sound
          ((isFrozen_context p).trans (congrArg Option.isSome hfrozen))
          ((Context.hasPending_eq (context_open hfrozen)).trans hpending) world
        -- what the context does is what the record does
        rw [(freezeNow_mirrors h hfrozen world).context, isFrozen_context] at haccepted
        exact .inr haccepted

theorem refused_iff (h : p.Tidy) (world : World) {s : Step} (hasks : s.asks = false)
    (e : ContextError) : (p.step world s).2 = .refused e ↔ Refuses world p s e := by
  refine ⟨fun hanswer => ?_, fun hrefuses => congrArg Prod.snd hrefuses.step⟩
  rcases step_cases h world hasks with ⟨e', hrefuses⟩ | ⟨haccepted, -⟩
  · rw [hrefuses.step] at hanswer
    obtain rfl := Answer.refused.inj hanswer
    exact hrefuses
  · exact nomatch haccepted.symm.trans hanswer

/-- Nothing is seen of a step that is refused, and the context is as before. -/
theorem Refuses.context (h : p.Tidy) {world : World} {s : Step} {e : ContextError}
    (hrefuses : Refuses world p s e) :
    p.context.step world s = ((p.context, .refused e), []) := by
  have hmirrors := step_mirrors h world s
  rw [hrefuses.step] at hmirrors
  exact Prod.ext hmirrors.context (List.self_eq_append_right.1 hmirrors.log)

theorem Tidy.step_refused (h : p.Tidy) {world : World} {s : Step} (hasks : s.asks = false)
    {e : ContextError} (hanswer : (p.context.step world s).1.2 = .refused e) :
    p.context.step world s = ((p.context, .refused e), []) := by
  rw [(step_mirrors h world s).context] at hanswer
  exact ((refused_iff h world hasks e).1 hanswer).context h

/-! ## §7. Freezing. -/

/-- A record that is not frozen does not answer. -/
theorem step_unanswered (hopen : p.frozen = none) (world : World) {s : Step}
    (hasks : s.asks = true) (hlevel : s.level = 0) :
    p.step world s = (p, p.context.unanswered s) := by
  rw [question_eq world p hasks, Context.step_asks (context_open hopen) world hasks hlevel]
  unfold see
  rw [List.append_nil]
  rfl

/-- What is frozen stays as it is. -/
theorem step_keeps (hfrozen : p.frozen.isSome) (world : World) (s : Step) :
    (p.step world s).1.frozen = p.frozen
      ∧ (p.step world s).1.failures = p.failures
      ∧ (p.step world s).1.uris = p.uris := by
  cases hasks : s.asks with
  | true =>
    rw [question_eq world p hasks]
    exact ⟨rfl, rfl, rfl⟩
  | false =>
    rw [step_frozen hfrozen world hasks]
    exact ⟨rfl, rfl, rfl⟩

theorem after_keeps (hfrozen : p.frozen.isSome) (history : List (World × Step)) :
    (p.after history).frozen = p.frozen
      ∧ (p.after history).failures = p.failures
      ∧ (p.after history).uris = p.uris := by
  induction history generalizing p with
  | nil => exact ⟨rfl, rfl, rfl⟩
  | cons first history ih =>
    obtain ⟨hkept, hfailures, huris⟩ := step_keeps hfrozen first.1 first.2
    have hlater := ih (p := (p.step first.1 first.2).1) (hkept ▸ hfrozen)
    rw [hkept, hfailures, huris] at hlater
    exact hlater

/-- Only a freeze that is accepted freezes a record. -/
theorem step_frozen_iff (h : p.Tidy) (hopen : p.frozen = none) (world : World) (s : Step) :
    (p.step world s).1.frozen.isSome
      ↔ (s = .freeze ∨ s = .freezeNow) ∧ (p.step world s).2 = .accepted := by
  have hnone : ¬ p.frozen.isSome := by
    rw [hopen]
    exact Bool.false_ne_true
  cases hasks : s.asks with
  | true =>
    rw [question_eq world p hasks]
    refine iff_of_false hnone ?_
    rintro ⟨rfl | rfl, -⟩ <;> exact nomatch hasks
  | false =>
    have hfreezes : s.registers = false ↔ s = .freeze ∨ s = .freezeNow := by
      cases s, hasks using Step.change_cases with
      | add _ | addPending _ => exact iff_of_false nofun nofun
      | freeze => exact iff_of_true rfl (.inl rfl)
      | freezeNow => exact iff_of_true rfl (.inr rfl)
    rw [← hfreezes]
    rcases step_cases h world hasks with ⟨e, hrefuses⟩ | ⟨haccepted, hfrozen⟩
    · rw [hrefuses.step]
      exact iff_of_false hnone fun hboth => nomatch hboth.2
    · rw [hfrozen, haccepted, Bool.not_eq_true']
      exact ⟨fun hregisters => ⟨hregisters, rfl⟩, And.left⟩

/-- A record is frozen as soon as a freeze has been accepted, and stays so. -/
theorem after_frozen_iff (h : p.Tidy) (hopen : p.frozen = none) (history : List (World × Step)) :
    (p.after history).frozen.isSome
      ↔ ∃ before world s later, history = before ++ (world, s) :: later
        ∧ (s = .freeze ∨ s = .freezeNow) ∧ ((p.after before).step world s).2 = .accepted := by
  -- by induction on the history: the first step freezes the record, or a later one does
  induction history generalizing p with
  | nil =>
    refine iff_of_false ?_ ?_
    · show ¬ p.frozen.isSome
      rw [hopen]
      exact Bool.false_ne_true
    · rintro ⟨before, world, s, later, hsplit, -⟩
      exact List.append_ne_nil_of_right_ne_nil before (List.cons_ne_nil _ later) hsplit.symm
  | cons first history ih =>
    have hfirst := step_frozen_iff h hopen first.1 first.2
    cases hnext : (p.step first.1 first.2).1.frozen with
    | some f =>
      have hsome : (p.step first.1 first.2).1.frozen.isSome := hnext ▸ rfl
      have hkept : (p.after (first :: history)).frozen.isSome := by
        show ((p.step first.1 first.2).1.after history).frozen.isSome
        rw [(after_keeps hsome history).1]
        exact hsome
      exact iff_of_true hkept ⟨[], first.1, first.2, history, rfl, hfirst.1 hsome⟩
    | none =>
      have hlater := ih (step_mirrors h first.1 first.2).tidy hnext
      refine hlater.trans ⟨?_, ?_⟩
      · rintro ⟨before, world, s, later, rfl, hs⟩
        exact ⟨first :: before, world, s, later, rfl, hs⟩
      · rintro ⟨before, world, s, later, hsplit, hs⟩
        cases before with
        | nil =>
          -- the first step would have frozen it
          obtain ⟨rfl, -⟩ := List.cons.inj hsplit
          have hsome := hfirst.2 hs
          rw [hnext] at hsome
          exact nomatch hsome
        | cons first' before =>
          obtain ⟨rfl, rfl⟩ := List.cons.inj hsplit
          exact ⟨before, world, s, later, rfl, hs⟩

/-- What a record does and has done, after a history from the start. -/
structure OneWay (around : Surroundings) (settings : Settings) (history : List (World × Step))
    (p : InPlace) : Prop where
  /-- It stands for the context after the history. -/
  context : p.context = (Context.new around settings).after history
  /-- It goes on like it: with the same answers, and the same is seen. -/
  mirrors : ∀ world s, Mirrors p (p.step world s) (p.context.step world s)
  /-- There are three reasons to refuse a step that is not a question. -/
  refused_iff : ∀ world s, s.asks = false → ∀ e,
    (p.step world s).2 = .refused e ↔ Refuses world p s e
  /-- Such a step changes nothing: not the resources, not what is recorded,
  frozen or built, and not what has been seen. -/
  unchanged : ∀ world s, s.asks = false → ∀ e, (p.step world s).2 = .refused e →
    (p.step world s).1 = p ∧ p.context.step world s = ((p.context, .refused e), [])
  /-- What could not be frozen at once is frozen later, all of it. -/
  retried : ∀ now later, (p.step now .freezeNow).2 = .refused .pendingLoads →
    (p.step now .freezeNow).1.step later .freeze
      = ((p.see (interleave (p.joined later).2)).frozenWith (p.joined later).1, .accepted)
  /-- It is frozen if a freeze has been accepted, and not before. -/
  frozen_iff : p.frozen.isSome
    ↔ ∃ before world s later, history = before ++ (world, s) :: later
      ∧ (s = .freeze ∨ s = .freezeNow)
      ∧ (((new around settings).after before).step world s).2 = .accepted
  /-- Until then a question is refused, unless it is one for the summary;
  nothing is read for it, and nothing is built. -/
  unanswered : p.frozen = none → ∀ world s, s.asks = true → s.level = 0 →
    (p.step world s).1 = p
      ∧ p.context.step world s = ((p.context, (p.step world s).2), [])
      ∧ ((∀ level, s ≠ .summary level) → (p.step world s).2 = .refused .notFrozen)
  /-- From then on, its own definitions, globals and failures are kept. -/
  kept : p.frozen.isSome → ∀ later,
    (p.after later).frozen = p.frozen
      ∧ (p.after later).failures = p.failures
      ∧ (p.after later).uris = p.uris

/-- After every history, a step that is refused changes nothing, and what has
been frozen is never changed again. -/
theorem freezing_is_one_way (around : Surroundings) (settings : Settings)
    (history : List (World × Step)) :
    OneWay around settings history ((new around settings).after history) := by
  obtain ⟨htidy, hcontext⟩ := after_mirrors (new_tidy around settings) history
  refine ⟨hcontext, step_mirrors htidy, fun world s => refused_iff htidy world, ?_, ?_,
    after_frozen_iff (new_tidy around settings) rfl history, ?_, after_keeps⟩
  · intro world s hasks e hanswer
    have hrefuses := (refused_iff htidy world hasks e).1 hanswer
    exact ⟨congrArg Prod.fst hrefuses.step, hrefuses.context htidy⟩
  · intro now later hanswer
    have hrefuses := (refused_iff htidy now rfl _).1 hanswer
    rw [hrefuses.step]
    cases hrefuses with
    | pendingLoads hopen _ _ => exact step_freeze_eq htidy hopen later
  · intro hopen world s hasks hlevel
    rw [step_unanswered hopen world hasks hlevel,
        Context.step_asks (context_open hopen) world hasks hlevel]
    exact ⟨rfl, rfl, Context.unanswered_eq⟩

end InPlace

end Phrasebook
