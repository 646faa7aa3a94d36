/-
  Phrasebook.Proofs.Cli.Coverage
  ────────────────────────────────
  **COVERAGE AGREES WITH THE FALLBACK CHAIN.**

  A coverage report compares lists of names, each of a locale that is loaded
  alone.  What it calls missing is what a chain serves from below, and what it
  calls extra is what one of two contexts serves and the other does not:

      finding_eq_found_iff  —  which tier a search finds an entity in
      ServedAt              —  a level of a context serves a name
      servedAt_zero, servedAt_one
                            —  by which names of single locales this is told
      opened                —  contexts with the resources of a command
      compareAll_run        —  the locales are compared, by induction on them
      Printed               —  what is shown of the reports
      coverage_agrees       —  what comes of the command
-/
import Phrasebook.Cli.Program
import Phrasebook.Proofs.Context.Private
import Phrasebook.Proofs.Load.Expansion

namespace Phrasebook

/-! ## §1. Searches. -/

namespace Eager

/-- A search finds an entity in the first tier that has it. -/
theorem finding_eq_found_iff {id : String} {e : Entity} {t : Tier} {ts : List Tier} :
    finding id ts = some (.found e t)
      ↔ ∃ k, ts[k]? = some t ∧ t.publicEntity? id = some e
        ∧ ∀ u ∈ ts.take k, u.publicEntity? id = none := by
  induction ts with
  | nil => exact iff_of_false nofun fun ⟨k, hk, _⟩ => nomatch hk
  | cons u us ih =>
    cases h : u.publicEntity? id with
    | some e' =>
      rw [finding_found h]
      constructor
      · intro heq
        cases heq
        exact ⟨0, rfl, h, fun v hv => absurd hv List.not_mem_nil⟩
      · rintro ⟨k, hk, he, hmiss⟩
        cases k with
        | zero =>
          obtain rfl := Option.some.inj hk
          rw [h] at he
          rw [Option.some.inj he]
        | succ k =>
          rw [hmiss u List.mem_cons_self] at h
          exact nomatch h
    | none =>
      -- nothing is found in this tier, so it is not the one
      have hpos : ∀ k, (u :: us)[k]? = some t → t.publicEntity? id = some e →
          ∃ k', k = k' + 1 := by
        intro k hk he
        cases k with
        | zero =>
          obtain rfl := Option.some.inj hk
          rw [h] at he
          exact nomatch he
        | succ k' => exact ⟨k', rfl⟩
      cases us with
      | nil =>
        rw [finding_last h]
        refine iff_of_false nofun fun ⟨k, hk, he, _⟩ => ?_
        obtain ⟨k', rfl⟩ := hpos k hk he
        exact nomatch hk
      | cons u' us =>
        rw [finding_next h, ih]
        constructor
        · rintro ⟨k, hk, he, hmiss⟩
          exact ⟨k + 1, hk, he, List.forall_mem_cons.2 ⟨h, hmiss⟩⟩
        · rintro ⟨k, hk, he, hmiss⟩
          obtain ⟨k', rfl⟩ := hpos k hk he
          exact ⟨k', hk, he, (List.forall_mem_cons.1 hmiss).2⟩

end Eager

/-! ## §2. Which level serves a name. -/

/-- A level of a frozen context serves a name: a search for the name comes to
an entity in the tier of this level, and the tier answers every question about
it, with a value or with an error. -/
structure Context.ServedBy (answers : String → Reading) (c : Context) (id : String) (level : Nat)
    (t : Tier) (e : Entity) : Prop where
  tier : ((c.atLevel level fun chain => pure (chain, chain.tier)).run answers).1.2 = some (.ok t)
  search : ((c.atLevel 0 (Chain.search c.around id)).run answers).1.2 = some (.ok (.found e t))
  answer : ∀ {α : Type} (question : Context.Question α),
    ((c.ask 0 id question).run answers).1.2
      = some ((question (t.environment c.around.host) e).mapError .evaluation)

/-- The level serves the name with some entity. -/
def Context.ServedAt (answers : String → Reading) (c : Context) (id : String) (level : Nat) :
    Prop :=
  ∃ t e, c.ServedBy answers id level t e

theorem Settings.tails_nodup (s : Settings) : s.tails.Nodup := by
  refine List.Nodup.map_on (fun j hj k hk heq => ?_) List.nodup_range
  -- the tails differ in the number of their locales
  have hlength := congrArg (fun s : Settings => s.locales.length) heq
  simp only [List.length_drop] at hlength
  rw [List.mem_range] at hj hk
  omega

namespace Supply

variable (supply : Supply)

theorem tiers_nodup (settings : Settings) : (supply.tiers settings).Nodup := by
  refine List.Nodup.of_map Tier.settings ?_
  have hsettings : (supply.tiers settings).map Tier.settings = settings.tails := by
    unfold tiers
    rw [List.map_map]
    exact List.map_id _
  rw [hsettings]
  exact settings.tails_nodup

section

variable {supply} {settings : Settings} {j : Nat} {id : String} {level : Nat}

theorem servedBy_iff {t : Tier} {e : Entity} :
    (supply.frozenAt settings j).ServedBy supply.answers id level t e
      ↔ (supply.tiers settings)[level]? = some t
        ∧ Eager.finding id (supply.tiers settings) = some (.found e t) := by
  have htier := congrArg (fun run => run.1.2)
    (atLevel_run (supply.look_acts fun tier => tier) settings level j _ rfl)
  have hsearch := congrArg (fun run => run.1.2)
    (atLevel_run (supply.search_acts id) settings 0 j _ rfl)
  dsimp only at htier hsearch
  rw [List.head?_drop, Option.map_id'] at htier
  rw [List.drop_zero] at hsearch
  constructor
  · intro h
    obtain ⟨t', ht, heq⟩ := Option.map_eq_some_iff.1 (htier.symm.trans h.tier)
    obtain ⟨f, hf, hfound⟩ := Option.map_eq_some_iff.1 (hsearch.symm.trans h.search)
    rw [Except.ok.inj heq] at ht
    rw [Except.ok.inj hfound] at hf
    exact ⟨ht, hf⟩
  · rintro ⟨ht, hf⟩
    rw [ht] at htier
    rw [hf] at hsearch
    refine ⟨htier, hsearch, fun question => ?_⟩
    rw [ask_run settings 0 j _ id question rfl]
    exact Eager.ask_found hf question

/-- A level serves the names that its tier has and the tiers above it lack. -/
theorem servedAt_iff :
    (supply.frozenAt settings j).ServedAt supply.answers id level
      ↔ (∃ t e, (supply.tiers settings)[level]? = some t ∧ t.publicEntity? id = some e)
        ∧ ∀ u ∈ (supply.tiers settings).take level, u.publicEntity? id = none := by
  constructor
  · rintro ⟨t, e, h⟩
    obtain ⟨ht, hfinding⟩ := servedBy_iff.1 h
    obtain ⟨k, hk, he, hmiss⟩ := Eager.finding_eq_found_iff.1 hfinding
    -- no other level has the same tier
    obtain ⟨hlt, -⟩ := List.getElem?_eq_some_iff.1 ht
    obtain rfl := (List.getElem?_inj hlt (supply.tiers_nodup settings)).1 (ht.trans hk.symm)
    exact ⟨⟨t, e, ht, he⟩, hmiss⟩
  · rintro ⟨⟨t, e, ht, he⟩, hmiss⟩
    have hfinding := Eager.finding_eq_found_iff.2 ⟨level, ht, he, hmiss⟩
    exact ⟨t, e, servedBy_iff.2 ⟨ht, hfinding⟩⟩

/-! ## §3. Names of a locale. -/

/-- A tier labels its entities by their names, as all tiers do. -/
theorem tier_labelled (supply : Supply) (settings : Settings) :
    (supply.tier settings).registry.Labelled := by
  have hloaded := (Tier.load_carries imparts_labels supply.around settings supply.uris).run
    supply.answers
  rw [load_run] at hloaded
  exact hloaded _ rfl

/-- What is defined in a tier depends only on how its resources are loaded. -/
theorem registry_congr {other : Supply} {settings' : Settings}
    (hanswers : supply.answers = other.answers) (huris : supply.uris = other.uris)
    (hloader : supply.around.loader settings = other.around.loader settings') :
    (supply.tier settings).registry = (other.tier settings').registry := by
  unfold tier Tier.compiled loaded
  rw [hanswers, huris, hloader]

variable (supply settings) in
/-- The names that a locale alone has for callers. -/
def names (locale : String) : List String :=
  (supply.tier { settings with locales := [locale] }).publicIds

variable (supply settings j) in
/-- A frozen context lists the names of its first tier. -/
theorem ids_run :
    (((supply.frozenAt settings j).ids 0).run supply.answers).1
      = (supply.frozenAt settings j, some (.ok (supply.tier settings).publicIds)) := by
  have hrun := atLevel_run (supply.look_acts Tier.publicIds) settings 0 j 0 (Nat.zero_min _).symm
  unfold Context.ids
  rw [hrun, Nat.max_zero, tiers_eq]
  rfl

/-- A tier has the names of its first locale, whatever locales come after. -/
theorem mem_names {locale : String} (others : List String) :
    id ∈ supply.names settings locale
      ↔ ∃ e, (supply.tier { settings with locales := locale :: others }).publicEntity? id
        = some e := by
  have hlabelled := supply.tier_labelled { settings with locales := locale :: others }
  have hsame : (supply.tier { settings with locales := [locale] }).registry
    = (supply.tier { settings with locales := locale :: others }).registry :=
    registry_congr rfl rfl rfl
  unfold names Tier.publicIds
  rw [hsame, Registry.mem_publicIds hlabelled, ← Option.ne_none_iff_exists', Ne,
      Tier.publicEntity?_eq_none_iff hlabelled, not_not]

theorem names_sorted (locale : String) :
    (supply.names settings locale).Pairwise fun a b => a < b :=
  Registry.publicIds_sorted (supply.tier_labelled _)

theorem names_nodup (locale : String) : (supply.names settings locale).Nodup :=
  Registry.publicIds_nodup (supply.tier_labelled _)

/-- The first level serves the names of the first locale. -/
theorem servedAt_zero {locale : String} {others : List String} :
    (supply.frozenAt { settings with locales := locale :: others } j).ServedAt supply.answers id 0
      ↔ id ∈ supply.names settings locale := by
  rw [servedAt_iff, tiers_eq, mem_names others]
  constructor
  · rintro ⟨⟨t, e, ht, he⟩, -⟩
    obtain rfl := Option.some.inj ht
    exact ⟨e, he⟩
  · rintro ⟨e, he⟩
    exact ⟨⟨_, e, rfl, he⟩, fun u hu => absurd hu List.not_mem_nil⟩

/-- The second level serves the names that only the second locale has. -/
theorem servedAt_one {locale next : String} {others : List String} :
    (supply.frozenAt { settings with locales := locale :: next :: others } j).ServedAt
        supply.answers id 1
      ↔ id ∈ supply.names settings next ∧ id ∉ supply.names settings locale := by
  rw [servedAt_iff, tiers_eq, mem_names others, mem_names (next :: others), not_exists,
      ← Option.eq_none_iff_forall_ne_some]
  constructor
  · rintro ⟨⟨t, e, ht, he⟩, hmiss⟩
    obtain rfl := Option.some.inj ht
    exact ⟨⟨e, he⟩, hmiss _ List.mem_cons_self⟩
  · rintro ⟨⟨e, he⟩, hmiss⟩
    refine ⟨⟨_, e, rfl, he⟩, fun u hu => ?_⟩
    rw [List.mem_singleton.1 hu]
    exact hmiss

end

end Supply

/-! ## §4. Contexts of a command. -/

namespace Cli

/-- A context with these resources, added one after the other, and frozen. -/
def opened (around : Surroundings) (settings : Settings) (uris : List String) :
    Errand (Except ContextError Context) := do
  match ← addAll (.new around settings) uris with
  | .error e => pure (.error e)
  | .ok c => c.freezeNow

theorem Sources.context_eq (s : Sources) (importDepth : Nat) (settings : Settings) :
    s.context importDepth settings = opened (s.around importDepth) settings s.resources :=
  rfl

section

variable (supply : Supply) (settings : Settings)

theorem addAll_run (uris : List String) : ∀ resources : List Registration,
    ((addAll (supply.collecting settings resources) uris).run supply.answers).1
      = .ok (supply.collecting settings
        (resources ++ uris.map (supply.registration settings))) := by
  induction uris with
  | nil =>
    intro resources
    rw [List.map_nil, List.append_nil]
    rfl
  | cons uri uris ih =>
    intro resources
    rw [addAll, Errand.run_bind_fst, Supply.add_run]
    dsimp only
    rw [ih, List.map_cons, List.append_assoc, List.singleton_append]

/-- Every context can be opened. -/
theorem opened_run :
    ((opened supply.around settings supply.uris).run supply.answers).1
      = .ok (supply.frozenAt settings 0) := by
  have hnew : Context.new supply.around settings = supply.collecting settings [] := rfl
  unfold opened
  rw [Errand.run_bind_fst, hnew, addAll_run, List.nil_append]
  dsimp only
  rw [Supply.freezeNow_collecting]
  rfl

end

/-- What the contexts of a command are loaded from. -/
def Sources.supply (s : Sources) (importDepth : Nat) (answers : String → Reading) : Supply :=
  ⟨answers, s.around importDepth, s.resources⟩

/-- The same for a host program that has globals and functions of its own. -/
def Sources.hosted (s : Sources) (importDepth : Nat) (globals : Bindings) (host : Host)
    (answers : String → Reading) : Supply :=
  ⟨answers, ⟨Path.ofUri s.root, importDepth, globals, host⟩, s.resources⟩

/-- What a host program has of its own adds no names. -/
theorem Sources.names_hosted (s : Sources) (importDepth : Nat) (globals : Bindings) (host : Host)
    (answers : String → Reading) (settings : Settings) (locale : String) :
    (s.supply importDepth answers).names settings locale
      = (s.hosted importDepth globals host answers).names settings locale :=
  congrArg Registry.publicIds (Supply.registry_congr rfl rfl rfl)

/-! ## §5. Comparing locales. -/

section

variable (importDepth : Nat) (sources : Sources) (settings : Settings)
  (answers : String → Reading)

theorem localeIds_run (locale : String) : ∃ warnings,
    ((localeIds importDepth sources settings locale).run answers).1
      = .ok ((sources.supply importDepth answers).names settings locale, warnings) := by
  have hopened : ((opened (sources.around importDepth) { settings with locales := [locale] }
      sources.resources).run answers).1 = _ :=
    opened_run (sources.supply importDepth answers) { settings with locales := [locale] }
  have hids : ((((sources.supply importDepth answers).frozenAt
      { settings with locales := [locale] } 0).ids 0).run answers).1 = _ := Supply.ids_run _ _ 0
  unfold localeIds
  rw [Errand.run_bind_fst, Sources.context_eq, hopened]
  dsimp only
  rw [Errand.run_bind_fst, hids]
  exact ⟨_, rfl⟩

/-- The report of a locale. -/
def report (reference locale : String) : Coverage :=
  .compare ((sources.supply importDepth answers).names settings reference) locale
    ((sources.supply importDepth answers).names settings locale)

/-- Every locale is compared with the reference. -/
theorem compareAll_run (reference : String) (locales : List String) : ∃ warnings,
    ((compareAll importDepth sources settings
        ((sources.supply importDepth answers).names settings reference) locales).run answers).1
      = (.ok (locales.map (report importDepth sources settings answers reference)), warnings) := by
  induction locales with
  | nil => exact ⟨[], rfl⟩
  | cons locale locales ih =>
    obtain ⟨warnings, hids⟩ := localeIds_run importDepth sources settings answers locale
    obtain ⟨more, hlater⟩ := ih
    refine ⟨warnings ++ more, ?_⟩
    rw [compareAll, Errand.run_bind_fst, hids]
    dsimp only
    rw [Errand.run_bind_fst, hlater]
    rfl

end

section

variable (importDepth : Nat) {sources : Sources} {settings : Settings} {answers : String → Reading}
  (strict json : Bool)

/-- The exit code says if something is missing that must not be. -/
theorem coverageOutcome_code (reference : String) (total : Nat) (warnings : List Complaint)
    (cs : List Coverage) :
    let code := (coverageOutcome reference total strict json warnings cs).code
    (code = 65 ↔ strict = true ∧ ∃ c ∈ cs, c.missing ≠ []) ∧ (code = 65 ∨ code = 0) := by
  intro code
  have hfault : (strict && cs.any fun c => !c.missing.isEmpty) = true
      ↔ strict = true ∧ ∃ c ∈ cs, c.missing ≠ [] := by
    simp only [Bool.and_eq_true, List.any_eq_true, Bool.not_eq_true', List.isEmpty_eq_false_iff]
  have hcode : code = if (strict && cs.any fun c => !c.missing.isEmpty) = true
      then dataFault else success := rfl
  rw [← hfault, hcode]
  split
  · next h => exact ⟨iff_of_true rfl h, .inl rfl⟩
  · next h => exact ⟨iff_of_false (by decide) h, .inr rfl⟩

/-- The output shows the reports, with the number of all names: as one
document, or as a table with a row for each of them, and below it the names
that each locale lacks. -/
structure Printed (reference : String) (total : Nat) (json : Bool) (reports : List Coverage)
    (output : List String) : Prop where
  document : json = true → output = [(Json.Document.list (reports.map fun c => .object
    [("locale", .text c.locale), ("translated", .natural c.translated), ("total", .natural total),
     ("missing", .list (c.missing.map .text)), ("extra", .list (c.extra.map .text))])).write]
  lines : json = false →
    let table : Table :=
      { header := ["Locale", "Coverage", "Missing", "Extra"]
        rows := reports.map fun c =>
          [c.locale, integerText c.translated ++ "/" ++ integerText total,
           integerText c.missing.length, integerText c.extra.length] }
    let lacking := reports.filter fun c => c.missing ≠ []
    output = ("Reference locale " ++ reference ++ ": " ++ integerText total ++ " entities")
      :: table.lines ++ lacking.flatMap fun c =>
        "" :: ("Missing in " ++ Colour.yellow.paint c.locale ++ ":")
          :: c.missing.map fun id => "  - " ++ id

/-- Only of locales that lack something there are lines below the table. -/
theorem flatMap_missingLines (cs : List Coverage) :
    cs.flatMap Coverage.missingLines
      = (cs.filter fun c => c.missing ≠ []).flatMap fun c =>
        "" :: ("Missing in " ++ Colour.yellow.paint c.locale ++ ":")
          :: c.missing.map fun id => "  - " ++ id := by
  induction cs with
  | nil => rfl
  | cons c cs ih =>
    rw [List.flatMap_cons, ih, Coverage.missingLines]
    by_cases hnone : c.missing = []
    · rw [List.filter_cons_of_neg (by simpa using hnone), if_pos (List.isEmpty_iff.2 hnone)]
      rfl
    · rw [List.filter_cons_of_pos (by simpa using hnone), List.flatMap_cons,
          if_neg (mt List.isEmpty_iff.1 hnone)]

theorem coverageOutcome_printed (reference : String) (total : Nat) (warnings : List Complaint)
    (cs : List Coverage) :
    Printed reference total json cs
      (coverageOutcome reference total strict json warnings cs).output where
  document hjson := by
    subst hjson
    rfl
  lines hjson := by
    subst hjson
    have hbelow := flatMap_missingLines cs
    show coverageLines reference total cs = _
    unfold coverageLines
    rw [hbelow]
    rfl

/-- With settings that have a locale, a report is made for every other one. -/
theorem run_coverage {reference : String} {others : List String}
    (hsettings : (sources.settings.run answers).1 = .ok settings)
    (hlocales : settings.locales = reference :: others) :
    let outcome := (((Command.coverage sources strict json).run importDepth).run answers).1
    let total := ((sources.supply importDepth answers).names settings reference).length
    let reports := others.map (report importDepth sources settings answers reference)
    (∃ warnings, outcome = coverageOutcome reference total strict json warnings reports)
      ∧ Printed reference total json reports outcome.output
      ∧ (outcome.code = 65 ↔ strict = true ∧ ∃ c ∈ reports, c.missing ≠ [])
      ∧ (outcome.code = 65 ∨ outcome.code = 0) := by
  intro outcome total reports
  obtain ⟨warnings, hids⟩ := localeIds_run importDepth sources settings answers reference
  obtain ⟨more, hreports⟩ := compareAll_run importDepth sources settings answers reference others
  have houtcome :
      outcome = coverageOutcome reference total strict json (warnings ++ more) reports := by
    show (((Command.coverage sources strict json).run importDepth).run answers).1 = _
    unfold Command.run runCoverage
    dsimp only
    rw [Errand.run_bind_fst, hsettings]
    dsimp only
    rw [hlocales]
    dsimp only
    rw [Errand.run_bind_fst, hids]
    dsimp only
    rw [Errand.run_bind_fst, hreports]
    rfl
  rw [houtcome]
  exact ⟨⟨_, rfl⟩, coverageOutcome_printed strict json reference total (warnings ++ more) reports,
    coverageOutcome_code strict json reference total (warnings ++ more) reports⟩

/-- Without a locale there is nothing to compare. -/
theorem run_coverage_fatal
    (h : ∀ settings, (sources.settings.run answers).1 = .ok settings → settings.locales = []) :
    (((Command.coverage sources strict json).run importDepth).run answers).1.code = 70 := by
  unfold Command.run runCoverage
  dsimp only
  rw [Errand.run_bind_fst]
  cases hsettings : (sources.settings.run answers).1 with
  | error e => rfl
  | ok settings =>
    dsimp only
    rw [h settings hsettings]
    rfl

end

/-! ## §6. Coverage and lookups. -/

/-- The report of a locale agrees with contexts that are opened over some
locales, whatever has been done with them before. -/
structure Coverage.Agrees (world : World) (opens : List String → Except ContextError Context)
    (reference : String) (total : Nat) (c : Coverage) : Prop where
  total : c.translated + c.missing.length = total
  missing_sorted : c.missing.Pairwise fun a b => a < b
  missing_nodup : c.missing.Nodup
  extra_sorted : c.extra.Pairwise fun a b => a < b
  extra_nodup : c.extra.Nodup
  /-- What is missing is served from below. -/
  missing : ∃ chain, opens [c.locale, reference] = .ok chain ∧ ∀ steps id, id ∈ c.missing
    ↔ (chain.steps world steps).1.1.ServedAt world.store.read id 1
      ∧ ¬ (chain.steps world steps).1.1.ServedAt world.store.read id 0
  /-- What is extra is served by the locale and not by the reference. -/
  extra : ∃ own other, opens [c.locale] = .ok own ∧ opens [reference] = .ok other
    ∧ ∀ steps others id, id ∈ c.extra
      ↔ (own.steps world steps).1.1.ServedAt world.store.read id 0
        ∧ ¬ (other.steps world others).1.1.ServedAt world.store.read id 0

theorem compare_total (reference : List String) (locale : String) (ids : List String) :
    (Coverage.compare reference locale ids).translated
        + (Coverage.compare reference locale ids).missing.length = reference.length := by
  have hnot : reference.countP (fun id => !ids.contains id)
      = reference.countP fun id => decide ¬ ids.contains id = true := by
    refine List.countP_congr fun id _ => ?_
    rw [Bool.not_eq_true', decide_eq_true_eq, Bool.not_eq_true]
  unfold Coverage.compare
  dsimp only
  rw [← List.countP_eq_length_filter, hnot, ← List.length_eq_countP_add_countP]

section

variable {supply : Supply} {settings : Settings} {world : World}

/-- Nothing that is done with a context that has been opened changes its
tiers. -/
theorem opened_steps (hworld : world.store.read = supply.answers) (locales : List String) :
    ∃ c, ((opened supply.around { settings with locales } supply.uris).run supply.answers).1 = .ok c
      ∧ ∀ steps, ∃ j,
        (c.steps world steps).1.1 = supply.frozenAt { settings with locales } j := by
  refine ⟨_, opened_run supply { settings with locales }, fun steps => ?_⟩
  rw [Supply.steps_frozenAt hworld]
  exact ⟨_, rfl⟩

variable (supply) in
theorem compare_agrees (hworld : world.store.read = supply.answers) (reference locale : String) :
    Coverage.Agrees world
      (fun locales =>
        ((opened supply.around { settings with locales } supply.uris).run supply.answers).1)
      reference (supply.names settings reference).length
      (.compare (supply.names settings reference) locale (supply.names settings locale)) where
  total := compare_total _ locale _
  missing_sorted := (Supply.names_sorted reference).filter _
  missing_nodup := (Supply.names_nodup reference).filter _
  extra_sorted := (Supply.names_sorted locale).filter _
  extra_nodup := (Supply.names_nodup locale).filter _
  missing := by
    -- the second level has what the reference has and the locale lacks
    obtain ⟨chain, hchain, hsteps⟩ := opened_steps hworld [locale, reference]
    refine ⟨chain, hchain, fun steps id => ?_⟩
    obtain ⟨j, hj⟩ := hsteps steps
    rw [hj, hworld, Supply.servedAt_one, Supply.servedAt_zero]
    unfold Coverage.compare
    simp only [List.mem_filter, Bool.not_eq_true', List.contains_eq_mem, decide_eq_false_iff_not]
    exact ⟨fun h => ⟨h, h.2⟩, And.left⟩
  extra := by
    obtain ⟨own, hown, hsteps⟩ := opened_steps hworld [locale]
    obtain ⟨other, hother, hlater⟩ := opened_steps hworld [reference]
    refine ⟨own, other, hown, hother, fun steps others id => ?_⟩
    obtain ⟨j, hj⟩ := hsteps steps
    obtain ⟨k, hk⟩ := hlater others
    rw [hj, hk, hworld, Supply.servedAt_zero, Supply.servedAt_zero]
    unfold Coverage.compare
    simp only [List.mem_filter, Bool.not_eq_true', List.contains_eq_mem, decide_eq_false_iff_not]

end

/-- **Coverage agrees with the fallback chain.**  The command fails if it has
no settings with a locale.  Otherwise it reports on every locale but the
reference what a chain of this locale and the reference would serve from below,
and what this locale serves alone and the reference does not, and shows these
reports.  The exit code is 65 if the command is strict and some locale lacks
something, and 0 otherwise. -/
theorem coverage_agrees (world : World) (importDepth : Nat) (sources : Sources)
    (strict json : Bool) :
    let answers := world.store.read
    let outcome := (((Command.coverage sources strict json).run importDepth).run answers).1
    (outcome.code = 70
        ↔ ∀ settings, (sources.settings.run answers).1 = .ok settings → settings.locales = [])
      ∧ ∀ settings reference others, (sources.settings.run answers).1 = .ok settings →
        settings.locales = reference :: others →
        ∃ ids warnings reports,
          outcome = coverageOutcome reference ids.length strict json warnings reports
          ∧ Printed reference ids.length json reports outcome.output
          ∧ reports.map Coverage.locale = others
          ∧ (outcome.code = 65 ↔ strict = true ∧ ∃ c ∈ reports, c.missing ≠ [])
          ∧ (outcome.code = 65 ∨ outcome.code = 0)
          ∧ ∀ globals host,
            let around : Surroundings := ⟨Path.ofUri sources.root, importDepth, globals, host⟩
            let opens := fun locales =>
              ((opened around { settings with locales } sources.resources).run answers).1
            (∃ c, opens [reference] = .ok c ∧ ((c.ids 0).run answers).1.2 = some (.ok ids))
              ∧ ∀ c ∈ reports, c.Agrees world opens reference ids.length := by
  intro answers outcome
  constructor
  · refine ⟨fun hcode settings hsettings => ?_, run_coverage_fatal importDepth strict json⟩
    cases hlocales : settings.locales with
    | nil => rfl
    | cons reference others =>
      -- with a locale the code is one of two others
      obtain ⟨-, -, -, hcodes⟩ := run_coverage importDepth strict json hsettings hlocales
      rcases hcodes with h | h <;> exact nomatch h.symm.trans hcode
  · intro settings reference others hsettings hlocales
    obtain ⟨⟨warnings, houtcome⟩, hprinted, hcodes⟩ :=
      run_coverage importDepth strict json hsettings hlocales
    refine ⟨_, warnings, _, houtcome, hprinted, ?_, hcodes.1, hcodes.2, fun globals host => ?_⟩
    · rw [List.map_map]
      exact List.map_id _
    · have hnames := sources.names_hosted importDepth globals host answers settings
      refine ⟨⟨_, opened_run (sources.hosted importDepth globals host answers)
        { settings with locales := [reference] }, ?_⟩, fun c hc => ?_⟩
      · rw [hnames]
        exact congrArg Prod.snd (Supply.ids_run _ _ 0)
      · obtain ⟨locale, -, rfl⟩ := List.mem_map.1 hc
        unfold report
        rw [hnames, hnames]
        exact compare_agrees (sources.hosted importDepth globals host answers) rfl reference locale

end Cli

end Phrasebook
