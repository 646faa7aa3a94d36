/-
  Phrasebook.Proofs.Context.Concurrent
  ────────────────────────────────
  **FREEZING WITH PENDING LOADS.**

  Some resources of a context are loaded at once, and the loads of others run
  side by side until the context is frozen:

      steps_registering   —  the context before it is frozen
      step_freeze         —  the tier that it is frozen as
      contributions_calm  —  if all loads end in time, they come to what they
                             come to one after the other
      freeze_joins        —  the outcome, at every pace
-/
import Phrasebook.Proofs.Context.Lazy
import Phrasebook.Proofs.Load.Joining

namespace Phrasebook

/-- How a resource is registered: with its load pending, or loaded at once. -/
def Step.registering : String × Bool → Step
  | (uri, true) => .addPending uri
  | (uri, false) => .add uri

namespace Supply

variable (supply : Supply) (settings : Settings)

/-! ## §1. Loads. -/

/-- What is read when a resource is loaded. -/
def paths (uri : String) : List String :=
  ((supply.around.loader settings).load uri).reads supply.answers

/-- A registered resource, as it is joined if its load goes on at this pace. -/
def joinable (pace : Pace) : String × Bool → Joinable
  | (uri, true) =>
    .pending uri (((supply.around.loader settings).load uri).course supply.answers pace [0])
  | (uri, false) => .loaded (supply.loaded settings uri).1

/-- Registered resources, as they are joined: each load goes on at the pace of
its place. -/
def joinables (pace : Nat → Pace) (rs : List (String × Bool)) : List Joinable :=
  rs.mapIdx fun i => supply.joinable settings (pace i)

/-- What registered resources contribute. -/
def contributed (pace : Nat → Pace) (rs : List (String × Bool)) : List Loader.Loaded :=
  contributions settings.loadTimeout 0 (supply.joinables settings pace rs)

/-- A registered resource, before it is joined. -/
def registered : String × Bool → Registration
  | (uri, true) => ⟨uri, none⟩
  | (uri, false) => supply.registration settings uri

theorem course_finish (pace : Pace) (uri : String) :
    (((supply.around.loader settings).load uri).course supply.answers pace [0]).finish
      = pace.duration (supply.paths settings uri) := by
  rw [Errand.course_finish, List.headD_cons, Nat.zero_add]
  rfl

theorem course_result (pace : Pace) (uri : String) :
    (((supply.around.loader settings).load uri).course supply.answers pace [0]).result
      = if (supply.paths settings uri).any pace.breaksOff then none
        else some (supply.loaded settings uri).1 :=
  Errand.course_result _ _ _ _

theorem joinable_definable (pace : Pace) (r : String × Bool) :
    (supply.joinable settings pace r).Definable := by
  obtain ⟨uri, pending⟩ := r
  have hload := Loader.load_definable (supply.around.loader settings) uri
  cases pending with
  | true => exact hload.course supply.answers pace [0]
  | false => exact hload.run supply.answers

theorem joinables_cons (pace : Nat → Pace) (r : String × Bool) (rs : List (String × Bool)) :
    supply.joinables settings pace (r :: rs)
      = supply.joinable settings (pace 0) r
        :: supply.joinables settings (fun i => pace (i + 1)) rs :=
  List.mapIdx_cons

/-! ## §2. Registering and freezing. -/

section

variable {supply settings} {store : Store} {pace : Nat → Pace}

theorem step_registering (hstore : store.read = supply.answers) (resources : List Registration)
    (r : String × Bool) :
    ((supply.collecting settings resources).step ⟨store, pace, true⟩ (.registering r)).1
      = (supply.collecting settings (resources ++ [supply.registered settings r]), .accepted) := by
  obtain ⟨uri, pending⟩ := r
  cases pending with
  | true => rfl
  | false =>
    rw [Step.registering, step_add hstore]
    rfl

theorem steps_cons (world : World) (c : Context) (s : Step) (ss : List Step) :
    (c.steps world (s :: ss)).1
      = (((c.step world s).1.1.steps world ss).1.1,
          (c.step world s).1.2 :: ((c.step world s).1.1.steps world ss).1.2) :=
  rfl

/-- Registering is never refused, and nothing has been joined after it. -/
theorem steps_registering (hstore : store.read = supply.answers) (ss : List Step)
    (rs : List (String × Bool)) : ∀ resources : List Registration,
    ((supply.collecting settings resources).steps ⟨store, pace, true⟩
        (rs.map .registering ++ ss)).1
      = let later := ((supply.collecting settings
          (resources ++ rs.map (supply.registered settings))).steps ⟨store, pace, true⟩ ss).1
        (later.1, List.replicate rs.length .accepted ++ later.2) := by
  induction rs with
  | nil =>
    intro resources
    have hnone : resources ++ [].map (supply.registered settings) = resources :=
      List.append_nil _
    rw [hnone]
    rfl
  | cons r rs ih =>
    intro resources
    rw [List.map_cons, List.cons_append, steps_cons, step_registering hstore]
    dsimp only
    rw [ih, List.map_cons, List.append_assoc, List.singleton_append]
    rfl

variable (supply settings) in
/-- The context that has been frozen with what came of its loads. -/
def frozenWith (loads : List Loader.Loaded) : Context where
  around := supply.around
  settings := settings
  stage := .frozen (.compiled supply.around settings supply.uris loads)
  below := Level.below settings

theorem joinable_registered (resources : List Registration) (pace : Pace) (r : String × Bool) :
    (supply.collecting settings resources).joinable supply.answers pace
        (supply.registered settings r)
      = supply.joinable settings pace r := by
  obtain ⟨uri, pending⟩ := r
  cases pending <;> rfl

/-- As many loads are waited for as are pending, whatever their paces. -/
theorem countP_joinables (rs : List (String × Bool)) : ∀ pace : Nat → Pace,
    (supply.joinables settings pace rs).countP (fun j => j.finish?.isSome)
      = rs.countP Prod.snd := by
  induction rs with
  | nil => exact fun pace => rfl
  | cons r rs ih =>
    intro pace
    have hfirst : (supply.joinable settings (pace 0) r).finish?.isSome = r.2 := by
      obtain ⟨uri, pending⟩ := r
      cases pending <;> rfl
    rw [joinables_cons, List.countP_cons, List.countP_cons, ih, hfirst]

theorem contributed_definable (rs : List (String × Bool)) :
    ∀ l ∈ supply.contributed settings pace rs, l.Definable := by
  unfold contributed
  rw [← joinAll_results]
  refine joinAll_definable (fun j hj => ?_) _ 0
  obtain ⟨i, -, rfl⟩ := List.mem_mapIdx.1 hj
  exact supply.joinable_definable settings (pace i) _

/-- The context is frozen with what its resources contribute. -/
theorem step_freeze (hstore : store.read = supply.answers) {rs : List (String × Bool)}
    (hrs : rs.map Prod.fst = supply.uris) :
    ((supply.collecting settings (rs.map (supply.registered settings))).step
        ⟨store, pace, true⟩ .freeze).1
      = (supply.frozenWith settings (supply.contributed settings pace rs), .accepted) := by
  have huris : (supply.collecting settings (rs.map (supply.registered settings))).uris
      = supply.uris := by
    rw [← hrs]
    show (rs.map (supply.registered settings)).map Registration.uri = _
    rw [List.map_map]
    refine List.map_congr_left fun r _ => ?_
    obtain ⟨uri, pending⟩ := r
    cases pending <;> rfl
  have hjoinables : (supply.collecting settings (rs.map (supply.registered settings))).joinables
      supply.answers pace (rs.map (supply.registered settings))
      = supply.joinables settings pace rs := by
    -- place by place, since each load has a pace of its own
    refine List.mapIdx_eq_iff.2 fun i => ?_
    unfold joinables
    rw [List.getElem?_mapIdx, List.getElem?_map, Option.map_map]
    exact congrArg (Option.map · rs[i]?) (funext fun r => (joinable_registered _ (pace i) r).symm)
  have hfreeze : ((supply.collecting settings (rs.map (supply.registered settings))).freeze
        supply.answers pace).1
      = .ok (supply.frozenWith settings (supply.contributed settings pace rs)) := by
    have hstage : (supply.collecting settings (rs.map (supply.registered settings))).stage
        = .collecting (rs.map (supply.registered settings)) := rfl
    unfold Context.freeze
    rw [hstage]
    dsimp only
    rw [hjoinables, joinAll_results]
    show ((Context.settle _ (supply.contributed settings pace rs)).run _).1 = _
    unfold Context.settle
    rw [huris, Tier.ofLoads_eq (contributed_definable rs)]
    rfl
  simp only [Context.step, hstore, hfreeze]
  rfl

/-- A context with pending loads, from its first step on. -/
theorem steps_freeze (hstore : store.read = supply.answers) {rs : List (String × Bool)}
    (hrs : rs.map Prod.fst = supply.uris) (ss : List Step) :
    ((Context.new supply.around settings).steps ⟨store, pace, true⟩
        (rs.map .registering ++ .freeze :: ss)).1
      = let later := ((supply.frozenWith settings (supply.contributed settings pace rs)).steps
          ⟨store, pace, true⟩ ss).1
        (later.1, List.replicate (rs.length + 1) .accepted ++ later.2) := by
  have hnew : Context.new supply.around settings = supply.collecting settings [] := rfl
  rw [hnew, steps_registering hstore, List.nil_append, steps_cons, step_freeze hstore hrs]
  dsimp only
  rw [List.replicate_succ', List.append_assoc, List.singleton_append]

end

/-! ## §3. Loads that nothing stops. -/

/-- All loads are over before their time is, and no read breaks one off. -/
structure Calm (pace : Nat → Pace) (rs : List (String × Bool)) : Prop where
  inTime : ∀ p ∈ (reached settings.loadTimeout 0 (supply.joinables settings pace rs)).zip
      (supply.joinables settings pace rs),
    ∀ finish, p.2.finish? = some finish → finish < p.1 + settings.loadTimeout
  unbroken : ∀ i uri, rs[i]? = some (uri, true) →
    (supply.paths settings uri).any (pace i).breaksOff = false

section

variable {supply settings} {store : Store}

/-- A load that is over in time, and that nothing breaks off, comes to what it
comes to by itself. -/
theorem contribution_calm {pace : Pace} {allowed now : Nat} {r : String × Bool}
    (htime : ∀ finish, (supply.joinable settings pace r).finish? = some finish →
      finish < now + allowed)
    (hunbroken : r.2 = true → (supply.paths settings r.1).any pace.breaksOff = false) :
    (supply.joinable settings pace r).contribution allowed now
      = (supply.loaded settings r.1).1 := by
  obtain ⟨uri, pending⟩ := r
  cases pending with
  | false => rfl
  | true =>
    have hfinish := htime _ rfl
    show (if _ < now + allowed then _ else _) = _
    rw [if_pos hfinish, course_result, hunbroken rfl]
    rfl

theorem contributions_calm (allowed : Nat) (rs : List (String × Bool)) :
    ∀ (pace : Nat → Pace) (now : Nat),
      (∀ p ∈ (reached allowed now (supply.joinables settings pace rs)).zip
          (supply.joinables settings pace rs),
        ∀ finish, p.2.finish? = some finish → finish < p.1 + allowed) →
      (∀ i uri, rs[i]? = some (uri, true) →
        (supply.paths settings uri).any (pace i).breaksOff = false) →
      contributions allowed now (supply.joinables settings pace rs)
        = rs.map fun r => (supply.loaded settings r.1).1 := by
  induction rs with
  | nil => exact fun pace now _ _ => rfl
  | cons r rs ih =>
    intro pace now htime hunbroken
    -- the first load has the first pace, and the others have those behind it
    rw [joinables_cons] at htime ⊢
    obtain ⟨hfirst, hlater⟩ := List.forall_mem_cons.1 htime
    have hr : r.2 = true → (supply.paths settings r.1).any (pace 0).breaksOff = false := by
      intro hpending
      refine hunbroken 0 r.1 ?_
      rw [← hpending]
      rfl
    rw [contributions_cons, contribution_calm hfirst hr, List.map_cons,
        ih _ _ hlater fun i => hunbroken (i + 1)]

/-- If nothing stops the loads, the context is frozen as if they had run one
after the other. -/
theorem frozenWith_calm {pace : Nat → Pace} {rs : List (String × Bool)}
    (hrs : rs.map Prod.fst = supply.uris) (h : supply.Calm settings pace rs) :
    supply.frozenWith settings (supply.contributed settings pace rs)
      = supply.frozenAt settings 0 := by
  have hloads : rs.map (fun r => (supply.loaded settings r.1).1)
      = supply.uris.map fun uri => (supply.loaded settings uri).1 := by
    rw [← hrs, List.map_map]
    rfl
  unfold contributed
  rw [contributions_calm _ rs pace 0 h.inTime h.unbroken, hloads]
  unfold frozenWith frozenAt
  rw [levels_zero]
  rfl

/-- If nothing stops the loads, neither their pace nor that they have been
pending can be told from what the context does. -/
theorem steps_calm (hstore : store.read = supply.answers) {pace : Nat → Pace}
    {rs : List (String × Bool)} (hrs : rs.map Prod.fst = supply.uris)
    (h : supply.Calm settings pace rs) (ss : List Step) {world : World}
    (hworld : world.store.read = supply.answers) :
    ((Context.new supply.around settings).steps ⟨store, pace, true⟩
        (rs.map .registering ++ .freeze :: ss)).1
      = ((Context.new supply.around settings).steps world
        (supply.uris.map .add ++ .freezeNow :: ss)).1 := by
  have hlength : rs.length = supply.uris.length := by rw [← hrs, List.length_map]
  rw [steps_freeze hstore hrs, frozenWith_calm hrs h, steps_frozenAt hstore, steps_new hworld,
      hlength, Nat.zero_max]

end

end Supply

/-! ## §4. The outcome. -/

/-- The entries of the loads that went well, those of one after those of the
other. -/
def concatenated : List Loader.Loaded → List Entry
  | [] => []
  | .ok entries :: loads => entries ++ concatenated loads
  | .error _ :: loads => concatenated loads

/-- The failures of the loads that did not, in their order. -/
def failed : List Loader.Loaded → List LoadFailure
  | [] => []
  | .ok _ :: loads => failed loads
  | .error failure :: loads => failure :: failed loads

theorem loadedEntries_eq (loads : List Loader.Loaded) :
    Tier.loadedEntries loads = concatenated loads := by
  induction loads with
  | nil => rfl
  | cons load loads ih =>
    rw [Tier.loadedEntries, List.flatMap_cons]
    cases load with
    | ok entries => exact congrArg (entries ++ ·) ih
    | error failure => exact ih

theorem loadFailures_eq (loads : List Loader.Loaded) :
    Tier.loadFailures loads = failed loads := by
  induction loads with
  | nil => rfl
  | cons load loads ih =>
    rw [Tier.loadFailures, List.filterMap_cons]
    cases load with
    | ok entries => exact ih
    | error failure => exact congrArg (failure :: ·) ih

/-- What a context with these settings is frozen as when these resources have
been registered, each with its load pending or not, and each load runs at the
pace of its place. -/
structure Supply.Joins (supply : Supply) (settings : Settings) (rs : List (String × Bool))
    (pace : Nat → Pace) : Prop where
  /-- All loads start at once, and each ends when what it reads has waited. -/
  finish : ∀ i uri, (((supply.around.loader settings).load uri).course supply.answers (pace i)
      [0]).finish = (pace i).duration (supply.paths settings uri)
  /-- By itself a load comes to what its run comes to, unless a read breaks it
  off. -/
  result : ∀ i uri, (((supply.around.loader settings).load uri).course supply.answers (pace i)
      [0]).result
    = if (supply.paths settings uri).any (pace i).breaksOff then none
      else some (supply.loaded settings uri).1
  /-- However time goes by, every resource contributes what it should, at the
  same time. -/
  ends : Untied settings.loadTimeout 0 (supply.joinables settings pace rs) → ∀ s,
    Relation.ReflTransGen (Joining.Step settings.loadTimeout)
        (.start (supply.joinables settings pace rs)) s →
      (∃ last, Relation.ReflTransGen (Joining.Step settings.loadTimeout) s last ∧ last.left = [])
      ∧ (s.left = [] →
        s.results = supply.contributed settings pace rs
          ∧ s.now = joinedAt settings.loadTimeout 0 (supply.joinables settings pace rs))
  /-- Each pending load is waited for as long as is allowed, at most. -/
  waits : joinedAt settings.loadTimeout 0 (supply.joinables settings pace rs)
    ≤ settings.loadTimeout * rs.countP Prod.snd
  /-- What the resources contribute is compiled in the order of registration,
  all of it, and so are the failures. -/
  compiles : ∃ registry,
    Registry.empty.compile (concatenated (supply.contributed settings pace rs))
        = (registry, .ok (Entry.countDefinitions
            (concatenated (supply.contributed settings pace rs))))
      ∧ ∀ store ss, store.read = supply.answers →
        let frozen : Context :=
          { around := supply.around
            settings := settings
            stage := .frozen
              { settings := settings
                uris := rs.map Prod.fst
                registry := registry
                globals := supply.around.tierGlobals settings
                failures := failed (supply.contributed settings pace rs) }
            below := Level.below settings }
        let later := (frozen.steps ⟨store, pace, true⟩ ss).1
        ((Context.new supply.around settings).steps ⟨store, pace, true⟩
            (rs.map .registering ++ .freeze :: ss)).1
          = (later.1, List.replicate (rs.length + 1) .accepted ++ later.2)

theorem Supply.joins (supply : Supply) (settings : Settings) {rs : List (String × Bool)}
    (hrs : rs.map Prod.fst = supply.uris) (pace : Nat → Pace) :
    supply.Joins settings rs pace where
  finish i := supply.course_finish settings (pace i)
  result i := supply.course_result settings (pace i)
  ends huntied s hrun := Joining.run_ends huntied hrun
  waits := by
    have hle := joinedAt_le settings.loadTimeout (supply.joinables settings pace rs) 0
    rw [countP_joinables, Nat.zero_add] at hle
    exact hle
  compiles := by
    have hcontributed : ∀ l ∈ supply.contributed settings pace rs, l.Definable :=
      contributed_definable rs
    have hdefinable := Tier.loadedEntries_holds hcontributed
    obtain ⟨registry, hregistry⟩ := Registry.compile_eq_of_definable hdefinable Registry.empty
    refine ⟨registry, loadedEntries_eq _ ▸ hregistry, fun store ss hstore => ?_⟩
    rw [steps_freeze hstore hrs, ← loadFailures_eq]
    unfold frozenWith Tier.compiled Registry.addEntries
    rw [hregistry, hrs]

namespace Context

/-- A context whose loads run side by side, each at a pace of its own, is frozen
with what each of them contributes when it is reached.  If nothing stops them,
two ways to pace them cannot be told apart, nor from loads that run one after
the other. -/
theorem freeze_joins (around : Surroundings) (settings : Settings) (store : Store)
    (rs : List (String × Bool)) :
    let supply : Supply := ⟨store.read, around, rs.map Prod.fst⟩
    let run (pace : Nat → Pace) (ss : List Step) :=
      ((new around settings).steps ⟨store, pace, true⟩ (rs.map .registering ++ .freeze :: ss)).1
    (∀ pace, supply.Joins settings rs pace)
      ∧ ∀ pace pace', supply.Calm settings pace rs → supply.Calm settings pace' rs →
        ∀ ss, run pace ss = run pace' ss
          ∧ run pace ss = ((new around settings).steps ⟨store, pace', true⟩
              (supply.uris.map .add ++ .freezeNow :: ss)).1 := by
  intro supply run
  refine ⟨fun pace => supply.joins settings rfl pace, fun pace pace' hcalm hcalm' ss => ?_⟩
  have hworld : (⟨store, pace', true⟩ : World).store.read = supply.answers := rfl
  have hrun : run pace ss = _ := Supply.steps_calm rfl rfl hcalm ss hworld
  have hrun' : run pace' ss = _ := Supply.steps_calm rfl rfl hcalm' ss hworld
  exact ⟨hrun.trans hrun'.symm, hrun⟩

end Context

end Phrasebook
