/-
  Phrasebook.Proofs.Context.Lazy
  ────────────────────────────────
  **LAZY CHAINS ANSWER LIKE EAGER ONES.**

  A frozen context is always the context that has been frozen first, with the
  tiers down to some level built (`frozenAt`).  A step builds the tiers that
  it reaches and are missing, each once, and answers as if all were there:

      levels, fresh   —  the levels below, and what is seen when more of them
                         are built
      step_frozenAt   —  what one step does
      steps_frozenAt  —  what several steps do, by induction
      steps_new       —  what a context does from its first step on
-/
import Phrasebook.Proofs.Context.Eager
import Phrasebook.Proofs.Context.Freeze

namespace Phrasebook

/-! ## §1. Errands one after the other. -/

theorem Errand.run_bind_eq {α β : Type} {answers : String → Reading} {e : Errand α}
    {f : α → Errand β} {a : α} {b : β} {log later : Log} (he : e.run answers = (a, log))
    (hf : (f a).run answers = (b, later)) : (e >>= f).run answers = (b, log ++ later) := by
  rw [Errand.bind_eq, Errand.run_bind, he, hf]

theorem Errand.run_forEach {α β : Type} (answers : String → Reading) (f : α → Errand β)
    (as : List α) :
    (Errand.forEach f as).run answers
      = (as.map fun a => ((f a).run answers).1, as.flatMap fun a => ((f a).run answers).2) := by
  induction as with
  | nil => rfl
  | cons a as ih =>
    have hlater : (Errand.forEach f as >>= fun bs => pure (((f a).run answers).1 :: bs)).run answers
        = (((f a).run answers).1 :: (as.map fun a => ((f a).run answers).1),
          (as.flatMap fun a => ((f a).run answers).2) ++ []) := run_bind_eq ih rfl
    rw [List.append_nil] at hlater
    exact run_bind_eq rfl hlater

namespace Supply

variable (supply : Supply)

/-! ## §2. Levels of which some are built. -/

/-- The levels with these settings, the first `j` of them built. -/
def levels : Nat → List Settings → List Level
  | _, [] => []
  | 0, s :: ss => .planned s :: levels 0 ss
  | j + 1, s :: ss => .built (supply.tier s) :: levels j ss

/-- What is seen when the first `r` levels have to be built and `j` of them
are. -/
def fresh (j r : Nat) (ss : List Settings) : Log :=
  ((ss.take r).drop j).flatMap supply.tierLog

theorem fresh_zero (j : Nat) (ss : List Settings) : supply.fresh j 0 ss = [] := by
  unfold fresh
  rw [List.take_zero, List.drop_nil]
  rfl

theorem fresh_of_le {j r : Nat} (h : r ≤ j) (ss : List Settings) : supply.fresh j r ss = [] := by
  unfold fresh
  have hlen : (ss.take r).length ≤ j := Nat.le_trans (List.length_take_le r ss) h
  rw [List.drop_of_length_le hlen]
  rfl

theorem fresh_cons (j r : Nat) (s : Settings) (ss : List Settings) :
    supply.fresh j (r + 1) (s :: ss) = supply.fresh j 1 [s] ++ supply.fresh (j - 1) r ss := by
  cases j with
  | zero =>
    unfold fresh
    simp only [List.take_succ_cons, List.take_zero, List.drop_zero, List.flatMap_cons,
      List.flatMap_nil, List.append_nil, Nat.zero_sub]
  | succ j =>
    unfold fresh
    simp only [List.take_succ_cons, List.take_zero, List.drop_succ_cons, List.drop_nil,
      List.flatMap_nil, List.nil_append, Nat.add_sub_cancel]

/-- Going down twice is going down to the lower of two levels. -/
theorem fresh_append (ss : List Settings) : ∀ j a b : Nat,
    supply.fresh j a ss ++ supply.fresh (max j a) b ss = supply.fresh j (max a b) ss := by
  induction ss with
  | nil =>
    intro j a b
    simp only [fresh, List.take_nil, List.drop_nil, List.flatMap_nil, List.append_nil]
  | cons s ss ih =>
    intro j a b
    cases a with
    | zero => rw [fresh_zero, List.nil_append, Nat.max_zero, Nat.zero_max]
    | succ a =>
      cases b with
      | zero => rw [fresh_zero, List.append_nil, Nat.max_zero]
      | succ b =>
        -- the first level is there when it is passed again
        have hone : supply.fresh (max j (a + 1)) 1 [s] = [] := supply.fresh_of_le (by omega) _
        have hpred : max j (a + 1) - 1 = max (j - 1) a := by omega
        have hmax : max (a + 1) (b + 1) = max a b + 1 := by omega
        rw [hmax, supply.fresh_cons j a s ss, supply.fresh_cons (max j (a + 1)) b s ss,
            supply.fresh_cons j (max a b) s ss, hone, hpred, List.nil_append, List.append_assoc, ih]

/-- Whatever answers there are, the loads of the resources can be defined. -/
theorem loaded_definable (settings : Settings) :
    ∀ l ∈ supply.uris.map fun uri => (supply.loaded settings uri).1, l.Definable := by
  intro l hl
  obtain ⟨uri, -, rfl⟩ := List.mem_map.1 hl
  exact (Loader.load_definable _ uri).run supply.answers

theorem load_run (settings : Settings) :
    (Tier.load supply.around settings supply.uris).run supply.answers
      = (.ok (supply.tier settings), supply.tierLog settings) := by
  refine Errand.run_bind_eq (Errand.run_forEach supply.answers _ supply.uris) ?_
  have hloaded : (supply.uris.map fun uri =>
      (((supply.around.loader settings).load uri).run supply.answers).1)
      = supply.uris.map fun uri => (supply.loaded settings uri).1 := rfl
  rw [hloaded, Tier.ofLoads_eq (supply.loaded_definable settings)]
  rfl

/-- The first level is built if it is only planned. -/
theorem levels_cons (j : Nat) (s : Settings) (ss : List Settings) :
    ∃ level, supply.levels j (s :: ss) = level :: supply.levels (j - 1) ss
      ∧ (level.tier supply.around supply.uris).run supply.answers
        = (some (supply.tier s), supply.fresh j 1 [s]) := by
  cases j with
  | zero =>
    refine ⟨.planned s, rfl, ?_⟩
    have hrun : (Level.tier supply.around supply.uris (.planned s)).run supply.answers
        = (some (supply.tier s), supply.tierLog s ++ []) :=
      Errand.run_bind_eq (supply.load_run s) rfl
    exact hrun
  | succ j =>
    refine ⟨.built (supply.tier s), rfl, ?_⟩
    rw [supply.fresh_of_le (Nat.le_add_left 1 j)]
    rfl

theorem built_levels (j r : Nat) (s : Settings) (ss : List Settings) :
    .built (supply.tier s) :: supply.levels (max (j - 1) r) ss
      = supply.levels (max j (r + 1)) (s :: ss) := by
  have hmax : max j (r + 1) = max (j - 1) r + 1 := by omega
  rw [hmax]
  rfl

/-! ## §3. Going down. -/

/-- What is done with a chain, in terms of its tiers: how far down it goes,
and what comes of it. -/
structure Acts {α : Type} (act : Chain → Errand (Chain × α)) (further : List Tier → Nat)
    (result : List Tier → Option α) : Prop where
  result_nil : result [] = none
  further_le : ∀ ts, further ts ≤ ts.length - 1
  run : ∀ (s : Settings) (ss : List Settings) (j : Nat),
    ∃ a, result ((s :: ss).map supply.tier) = some a
      ∧ (act ⟨supply.tier s, supply.levels j ss⟩).run supply.answers
        = ((⟨supply.tier s,
              supply.levels (max j (further ((s :: ss).map supply.tier))) ss⟩, a),
          supply.fresh j (further ((s :: ss).map supply.tier)) ss)

section

variable {supply} {α : Type} {act : Chain → Errand (Chain × α)} {further : List Tier → Nat}
  {result : List Tier → Option α}

theorem atDepth_run (h : supply.Acts act further result) (ss : List Settings) : ∀ n j r : Nat,
    r = min (n + 1 + further ((ss.map supply.tier).drop n)) ss.length →
    (Level.atDepth supply.around act n supply.uris (supply.levels j ss)).run supply.answers
      = ((supply.levels (max j r) ss, result ((ss.map supply.tier).drop n)),
        supply.fresh j r ss) := by
  induction ss with
  | nil =>
    intro n j r hr
    rw [List.map_nil, List.drop_nil, h.result_nil]
    have hdone : (supply.levels (max j r) [], supply.fresh j r []) = ([], []) := by
      simp only [fresh, List.take_nil, List.drop_nil, List.flatMap_nil, levels]
    obtain ⟨hlevels, hlog⟩ := Prod.mk.inj hdone
    rw [hlevels, hlog]
    cases n <;> cases j <;> rfl
  | cons s ss ih =>
    intro n j r hr
    obtain ⟨level, hlevels, hlevel⟩ := supply.levels_cons j s ss
    rw [hlevels, Level.atDepth]
    -- the level itself is built if it is missing, and one fewer is below it
    cases n with
    | zero =>
      obtain ⟨a, ha, hact⟩ := h.run s ss (j - 1)
      have hle := h.further_le ((s :: ss).map supply.tier)
      rw [List.drop_zero] at hr ⊢
      rw [ha]
      generalize further ((s :: ss).map supply.tier) = d at hr hle hact
      obtain rfl : r = d + 1 := by
        rw [List.length_map, List.length_cons] at hle
        rw [List.length_cons] at hr
        omega
      have hfirst : (act ⟨supply.tier s, supply.levels (j - 1) ss⟩ >>= fun r =>
          (pure (.built r.1.tier :: r.1.below, some r.2) : Errand (List Level × Option α))).run
            supply.answers
          = ((.built (supply.tier s) :: supply.levels (max (j - 1) d) ss, some a),
            supply.fresh (j - 1) d ss ++ []) := Errand.run_bind_eq hact rfl
      rw [List.append_nil, built_levels] at hfirst
      rw [fresh_cons]
      exact Errand.run_bind_eq hlevel hfirst
    | succ n =>
      rw [List.map_cons, List.drop_succ_cons] at hr ⊢
      have hlater := ih n (j - 1) (r - 1) (by
        rw [List.length_cons] at hr
        omega)
      have hrest : (Level.atDepth supply.around act n supply.uris (supply.levels (j - 1) ss) >>=
          fun r => (pure (.built (supply.tier s) :: r.1, r.2) : Errand (List Level × Option α))).run
            supply.answers
          = ((.built (supply.tier s) :: supply.levels (max (j - 1) (r - 1)) ss,
              result ((ss.map supply.tier).drop n)),
            supply.fresh (j - 1) (r - 1) ss ++ []) := Errand.run_bind_eq hlater rfl
      have hpos : r = (r - 1) + 1 := by
        rw [List.length_cons] at hr
        omega
      rw [List.append_nil, built_levels, ← hpos] at hrest
      rw [hpos, fresh_cons, ← hpos]
      exact Errand.run_bind_eq hlevel hrest

end

/-! ## §4. Looking at a tier, and searching. -/

/-- What only looks at a tier builds nothing. -/
theorem look_acts {α : Type} (look : Tier → α) :
    supply.Acts (fun chain => pure (chain, look chain.tier)) (fun _ => 0)
      fun ts => ts.head?.map look where
  result_nil := rfl
  further_le _ := Nat.zero_le _
  run s ss j := by
    refine ⟨look (supply.tier s), rfl, ?_⟩
    rw [fresh_zero, Nat.max_zero]
    rfl

end Supply

namespace Eager

variable {id : String} {t : Tier}

theorem finding_found {e : Entity} (h : t.publicEntity? id = some e) (ts : List Tier) :
    finding id (t :: ts) = some (.found e t) := by
  unfold finding
  rw [List.findSome?_cons, h]
  rfl

theorem finding_last (h : t.publicEntity? id = none) : finding id [t] = some (.missed t) := by
  unfold finding
  rw [List.findSome?_cons, h]
  rfl

theorem finding_next (h : t.publicEntity? id = none) (t' : Tier) (ts : List Tier) :
    finding id (t :: t' :: ts) = finding id (t' :: ts) := by
  unfold finding
  rw [List.findSome?_cons, h, List.getLast?_cons_cons]
  rfl

theorem further_found {e : Entity} (h : t.publicEntity? id = some e) (ts : List Tier) :
    further id (t :: ts) = 0 := by
  have hhas : Tier.has id t = true := by
    unfold Tier.has
    rw [h]
    rfl
  unfold further
  rw [List.findIdx_cons, hhas]
  exact Nat.zero_min _

theorem further_next (h : t.publicEntity? id = none) (t' : Tier) (ts : List Tier) :
    further id (t :: t' :: ts) = further id (t' :: ts) + 1 := by
  have hhas : Tier.has id t = false := by
    unfold Tier.has
    rw [h]
    rfl
  unfold further
  rw [List.findIdx_cons, hhas]
  simp only [cond_false, List.length_cons]
  omega

end Eager

namespace Supply

open Phrasebook.Eager

variable (supply : Supply)

/-- A search goes down to the first tier that has the entity. -/
theorem searchFrom_run (id : String) (ss : List Settings) : ∀ (s : Settings) (j : Nat),
    ∃ f, finding id ((s :: ss).map supply.tier) = some f
      ∧ (Chain.searchFrom supply.around id (supply.tier s) (supply.levels j ss)).run supply.answers
        = ((f, supply.levels (max j (further id ((s :: ss).map supply.tier))) ss),
          supply.fresh j (further id ((s :: ss).map supply.tier)) ss) := by
  induction ss with
  | nil =>
    intro s j
    have hlast : further id ([s].map supply.tier) = 0 := Nat.min_zero _
    rw [hlast, fresh_zero, Nat.max_zero]
    have hlevels : supply.levels j [] = [] := by unfold levels; rfl
    rw [hlevels]
    cases h : (supply.tier s).publicEntity? id with
    | some e =>
      refine ⟨_, finding_found h [], ?_⟩
      rw [Chain.searchFrom_found h]
      rfl
    | none =>
      refine ⟨_, finding_last h, ?_⟩
      rw [Chain.searchFrom_last h]
      rfl
  | cons s' ss ih =>
    intro s j
    rw [List.map_cons]
    cases h : (supply.tier s).publicEntity? id with
    | some e =>
      refine ⟨_, finding_found h _, ?_⟩
      rw [Chain.searchFrom_found h, further_found h, fresh_zero, Nat.max_zero]
      rfl
    | none =>
      -- a search that misses goes on at the next level, which is built then
      obtain ⟨f, hf, hrun⟩ := ih s' (j - 1)
      obtain ⟨level, hlevels, hlevel⟩ := supply.levels_cons j s' ss
      rw [List.map_cons, finding_next h, further_next h, hlevels, Chain.searchFrom_next h]
      refine ⟨f, hf, ?_⟩
      have hlater : (Chain.searchFrom supply.around id (supply.tier s') (supply.levels (j - 1) ss)
          >>= fun r => (pure (r.1, .built (supply.tier s') :: r.2) :
            Errand (Finding × List Level))).run supply.answers = _ := Errand.run_bind_eq hrun rfl
      rw [List.append_nil, built_levels] at hlater
      rw [fresh_cons]
      exact Errand.run_bind_eq hlevel hlater

/-- What a search of a chain comes to. -/
theorem search_acts (id : String) :
    supply.Acts (Chain.search supply.around id) (further id) (finding id) where
  result_nil := rfl
  further_le _ := Nat.min_le_right _ _
  run s ss j := by
    obtain ⟨f, hf, hrun⟩ := supply.searchFrom_run id ss s j
    refine ⟨f, hf, ?_⟩
    have hsearch : (Chain.search supply.around id ⟨supply.tier s, supply.levels j ss⟩).run
        supply.answers = _ := Errand.run_bind_eq hrun rfl
    rw [hsearch, List.append_nil]

/-- A lookup is answered by the tier that its search comes to. -/
theorem lookup_acts {α : Type} (id : String) (question : Context.Question α) :
    supply.Acts (Chain.lookup supply.around id question) (further id)
      fun ts => (finding id ts).map fun f => f.answer supply.around.host id question where
  result_nil := rfl
  further_le _ := Nat.min_le_right _ _
  run s ss j := by
    obtain ⟨f, hf, hsearch⟩ := (supply.search_acts id).run s ss j
    refine ⟨f.answer supply.around.host id question, ?_, ?_⟩
    · rw [hf]
      rfl
    · have hlookup : (Chain.lookup supply.around id question
          ⟨supply.tier s, supply.levels j ss⟩).run supply.answers = _ :=
        Errand.run_bind_eq hsearch rfl
      rw [hlookup, List.append_nil]

/-! ## §5. Frozen contexts. -/

/-- The context with these settings, frozen, with `j` of the levels below
built. -/
def frozenAt (settings : Settings) (j : Nat) : Context where
  around := supply.around
  settings := settings
  stage := .frozen (supply.tier settings)
  below := supply.levels j settings.fallbacks

theorem tiers_eq (settings : Settings) :
    supply.tiers settings = (settings :: settings.fallbacks).map supply.tier := by
  unfold tiers
  rw [Settings.tails_eq]

section

variable {supply} {α : Type} {act : Chain → Errand (Chain × α)} {further : List Tier → Nat}
  {result : List Tier → Option α}

/-- What is done at a level of a frozen context. -/
theorem atLevel_run (h : supply.Acts act further result) (settings : Settings) (level j r : Nat)
    (hr : r = min (level + further ((supply.tiers settings).drop level))
      ((supply.tiers settings).length - 1)) :
    ((supply.frozenAt settings j).atLevel level act).run supply.answers
      = ((supply.frozenAt settings (max j r),
          (result ((supply.tiers settings).drop level)).map .ok),
        supply.fresh j r settings.fallbacks) := by
  rw [tiers_eq] at hr ⊢
  cases level with
  | zero =>
    obtain ⟨a, ha, hact⟩ := h.run settings settings.fallbacks j
    have hle := h.further_le ((settings :: settings.fallbacks).map supply.tier)
    rw [List.drop_zero] at hr ⊢
    rw [ha]
    obtain rfl : r = further ((settings :: settings.fallbacks).map supply.tier) := by omega
    have hrun := Errand.run_bind_eq (f := fun c => pure (({ supply.frozenAt settings j with
      stage := .frozen c.1.tier, below := c.1.below } : Context),
      (some (.ok c.2) : Option (Except ContextError α)))) hact rfl
    rw [List.append_nil] at hrun
    exact hrun
  | succ n =>
    rw [List.map_cons, List.drop_succ_cons] at hr ⊢
    rw [List.length_cons, List.length_map] at hr
    have hdepth := atDepth_run h settings.fallbacks n j r (by omega)
    have hrun : ((supply.frozenAt settings j).atLevel (n + 1) act).run supply.answers = _ :=
      Errand.run_bind_eq hdepth rfl
    rw [List.append_nil] at hrun
    exact hrun

/-- What is asked at a level of a frozen context. -/
theorem ask_run (settings : Settings) (level j r : Nat) (id : String)
    (question : Context.Question α)
    (hr : r = min (level + Eager.further id ((supply.tiers settings).drop level))
      ((supply.tiers settings).length - 1)) :
    ((supply.frozenAt settings j).ask level id question).run supply.answers
      = ((supply.frozenAt settings (max j r),
          Eager.ask supply.around.host (supply.tiers settings) level id question),
        supply.fresh j r settings.fallbacks) := by
  have hlevel := atLevel_run (supply.lookup_acts id question) settings level j r hr
  have hrun : ((supply.frozenAt settings j).ask level id question).run supply.answers = _ :=
    Errand.run_bind_eq hlevel rfl
  rw [hrun, List.append_nil]
  refine congrArg (fun answer => ((supply.frozenAt settings (max j r), answer), _)) ?_
  rw [ask_eq_finding]
  cases Eager.finding id ((supply.tiers settings).drop level) with
  | none => rfl
  | some f =>
    simp only [Option.map_some]
    cases f.answer supply.around.host id question <;> rfl

end

/-! ## §6. Steps. -/

section

variable {supply} {world : World} {settings : Settings} {j : Nat}

theorem asking_eq {α : Type} (hworld : world.store.read = supply.answers) (make : α → Answer)
    {errand : Errand (Context × Option (Except ContextError α))} {next : Context}
    {answer : Option (Except ContextError α)} {log : Log}
    (h : errand.run supply.answers = ((next, answer), log)) :
    Context.step.asking world make errand = ((next, Context.answerOf make answer), log) := by
  unfold Context.step.asking
  rw [hworld, h]

theorem ask_eq {α : Type} (hworld : world.store.read = supply.answers) (make : α → Answer)
    (level : Nat) (id : String) (question : Context.Question α) {s : Step}
    (hlevel : s.level = level) (hsought : s.sought = some id) :
    Context.step.asking world make ((supply.frozenAt settings j).ask level id question)
      = ((supply.frozenAt settings (max j (reach (supply.tiers settings) s)),
          Context.answerOf make (Eager.ask supply.around.host (supply.tiers settings) level id question)),
        supply.fresh j (reach (supply.tiers settings) s) settings.fallbacks) := by
  refine asking_eq hworld make (ask_run settings level j _ id question ?_)
  unfold reach
  rw [hlevel, hsought]
  rfl

/-- A step builds the tiers down to where it reaches, those that are missing,
and answers as if all were there. -/
theorem step_frozenAt (hworld : world.store.read = supply.answers) (s : Step) :
    (supply.frozenAt settings j).step world s
      = ((supply.frozenAt settings (max j (reach (supply.tiers settings) s)),
          answer supply.around.host (supply.tiers settings) s),
        supply.fresh j (reach (supply.tiers settings) s) settings.fallbacks) := by
  -- a step that a frozen context refuses reaches the first tier only
  have hfirst : ∀ s : Step, s.level = 0 → s.sought = none →
      reach (supply.tiers settings) s = 0 := by
    intro s hlevel hsought
    unfold reach
    rw [hlevel, hsought]
    exact Nat.zero_min _
  -- a step that looks at a tier reaches its level
  have hlook : ∀ (s : Step) (level : Nat), s.level = level → s.sought = none →
      reach (supply.tiers settings) s = min (level + (fun _ => 0)
        ((supply.tiers settings).drop level)) ((supply.tiers settings).length - 1) := by
    intro s level hlevel hsought
    unfold reach
    rw [hlevel, hsought]
    rfl
  cases s with
  | add uri =>
    rw [hfirst _ rfl rfl, fresh_zero, Nat.max_zero]
    rfl
  | addPending uri =>
    rw [hfirst _ rfl rfl, fresh_zero, Nat.max_zero]
    rfl
  | freeze =>
    rw [hfirst _ rfl rfl, fresh_zero, Nat.max_zero]
    rfl
  | freezeNow =>
    rw [hfirst _ rfl rfl, fresh_zero, Nat.max_zero]
    rfl
  | summary level =>
    have hlevel := atLevel_run (supply.look_acts Context.Summary.ofTier) settings level j _
      (hlook (.summary level) level rfl rfl)
    have hrun : ((supply.frozenAt settings j).summary level).run supply.answers = _ :=
      Errand.run_bind_eq hlevel rfl
    simp only [Context.step, hworld, hrun, List.append_nil, answer, List.head?_drop]
    refine congrArg (fun a => ((supply.frozenAt settings _, a), _)) ?_
    cases (supply.tiers settings)[level]? <;> rfl
  | ids level =>
    have hlevel := atLevel_run (supply.look_acts Tier.publicIds) settings level j _
      (hlook (.ids level) level rfl rfl)
    have hids : (supply.frozenAt settings j).step world (.ids level) = _ :=
      asking_eq hworld .names hlevel
    rw [hids, List.head?_drop]
    refine congrArg (fun a => ((supply.frozenAt settings _, a), _)) ?_
    simp only [answer]
    cases (supply.tiers settings)[level]? <;> rfl
  | get level id data => exact ask_eq hworld .text level id _ rfl rfl
  | getAttribute level id name data => exact ask_eq hworld .value level id _ rfl rfl
  | getAttributes level id data => exact ask_eq hworld .attributes level id _ rfl rfl
  | getEntity level id data => exact ask_eq hworld .entity level id _ rfl rfl

/-- Several steps build the tiers down to where the lowest of them reaches,
each once. -/
theorem steps_frozenAt (hworld : world.store.read = supply.answers) (ss : List Step) : ∀ j : Nat,
    (supply.frozenAt settings j).steps world ss
      = ((supply.frozenAt settings (max j (reachAll (supply.tiers settings) ss)),
          ss.map (answer supply.around.host (supply.tiers settings))),
        supply.fresh j (reachAll (supply.tiers settings) ss) settings.fallbacks) := by
  induction ss with
  | nil =>
    intro j
    have hnone : reachAll (supply.tiers settings) [] = 0 := rfl
    rw [hnone, fresh_zero, Nat.max_zero]
    rfl
  | cons s ss ih =>
    intro j
    have hreach : reachAll (supply.tiers settings) (s :: ss)
      = max (reach (supply.tiers settings) s) (reachAll (supply.tiers settings) ss) := rfl
    rw [Context.steps, step_frozenAt hworld]
    dsimp only
    rw [ih, hreach, ← Nat.max_assoc, ← fresh_append]
    rfl

/-! ## §7. Collecting. -/

variable (supply) in
/-- The context with these settings that collects, with some resources. -/
def collecting (settings : Settings) (resources : List Registration) : Context where
  around := supply.around
  settings := settings
  stage := .collecting resources
  below := Level.below settings

variable (supply) in
/-- A resource that has been loaded. -/
def registration (settings : Settings) (uri : String) : Registration :=
  ⟨uri, some (supply.loaded settings uri).1⟩

theorem add_run (settings : Settings) (resources : List Registration) (uri : String) :
    ((supply.collecting settings resources).add uri).run supply.answers
      = (.ok (supply.collecting settings (resources ++ [supply.registration settings uri])),
        (supply.loaded settings uri).2) := by
  have hrun : ((supply.collecting settings resources).add uri).run supply.answers
      = (.ok (supply.collecting settings (resources ++ [supply.registration settings uri])),
        (supply.loaded settings uri).2 ++ []) := Errand.run_bind_eq rfl rfl
  rw [hrun, List.append_nil]

theorem step_add (hworld : world.store.read = supply.answers) (resources : List Registration)
    (uri : String) :
    (supply.collecting settings resources).step world (.add uri)
      = ((supply.collecting settings (resources ++ [supply.registration settings uri]), .accepted),
        (supply.loaded settings uri).2) := by
  simp only [Context.step, Context.step.changing, hworld, add_run]
  rfl

/-- Resources are loaded one after the other. -/
theorem steps_add (hworld : world.store.read = supply.answers) (ss : List Step)
    (uris : List String) : ∀ resources : List Registration,
    (supply.collecting settings resources).steps world (uris.map .add ++ ss)
      = let later := (supply.collecting settings
          (resources ++ uris.map (supply.registration settings))).steps world ss
        ((later.1.1, List.replicate uris.length .accepted ++ later.1.2),
          (uris.flatMap fun uri => (supply.loaded settings uri).2) ++ later.2) := by
  induction uris with
  | nil =>
    intro resources
    have hnone : resources ++ [].map (supply.registration settings) = resources :=
      List.append_nil _
    rw [hnone]
    rfl
  | cons uri uris ih =>
    intro resources
    rw [List.map_cons, List.cons_append, Context.steps, step_add hworld]
    dsimp only
    rw [ih, List.map_cons, List.append_assoc, List.singleton_append, List.length_cons,
        List.replicate_succ, List.flatMap_cons, List.append_assoc]
    rfl

theorem results?_registration (settings : Settings) (uris : List String) :
    Context.results? (uris.map (supply.registration settings))
      = some (uris.map fun uri => (supply.loaded settings uri).1) := by
  induction uris with
  | nil => rfl
  | cons uri uris ih =>
    rw [List.map_cons, Context.results?, ih]
    rfl

theorem levels_zero (ss : List Settings) : supply.levels 0 ss = ss.map .planned := by
  induction ss with
  | nil => rfl
  | cons s ss ih =>
    rw [levels, ih]
    rfl

/-- With all of its resources, a context freezes as its first tier. -/
theorem freezeNow_collecting (settings : Settings) :
    (supply.collecting settings (supply.uris.map (supply.registration settings))).freezeNow
      = .announce .ready (.done (.ok (supply.frozenAt settings 0))) := by
  have huris : (supply.collecting settings (supply.uris.map (supply.registration settings))).uris
      = supply.uris := by
    unfold Context.uris collecting
    dsimp only
    rw [List.map_map]
    exact List.map_id _
  unfold Context.freezeNow
  have hstage : (supply.collecting settings
      (supply.uris.map (supply.registration settings))).stage
    = .collecting (supply.uris.map (supply.registration settings)) := rfl
  rw [hstage]
  dsimp only
  rw [results?_registration]
  unfold Context.settle
  dsimp only
  rw [huris, Tier.ofLoads_eq (supply.loaded_definable settings)]
  unfold frozenAt
  rw [levels_zero]
  rfl

theorem step_freezeNow (hworld : world.store.read = supply.answers) :
    (supply.collecting settings (supply.uris.map (supply.registration settings))).step world
        .freezeNow
      = ((supply.frozenAt settings 0, .accepted), [.event .ready]) := by
  simp only [Context.step, Context.step.changing, hworld, freezeNow_collecting]
  rfl

/-- What is seen of a context down to a level is what is seen of loading its
tiers down to there. -/
theorem tierLog_append_fresh (settings : Settings) (r : Nat) :
    supply.tierLog settings ++ supply.fresh 0 r settings.fallbacks
      = ((supply.logs settings).take (r + 1)).flatten := by
  unfold logs fresh
  rw [Settings.tails_eq, List.map_cons, List.take_succ_cons, List.flatten_cons, List.drop_zero,
      List.flatMap_def, List.map_take]

/-- What a context does from its first step on. -/
theorem steps_new (hworld : world.store.read = supply.answers) (settings : Settings)
    (ss : List Step) :
    (Context.new supply.around settings).steps world (supply.uris.map .add ++ .freezeNow :: ss)
      = ((supply.frozenAt settings (reachAll (supply.tiers settings) ss),
          List.replicate (supply.uris.length + 1) .accepted
            ++ ss.map (answer supply.around.host (supply.tiers settings))),
        ((supply.logs settings).take (reachAll (supply.tiers settings) ss + 1)).flatten) := by
  have hnew : Context.new supply.around settings = supply.collecting settings [] := rfl
  rw [hnew, steps_add hworld, List.nil_append, Context.steps, step_freezeNow hworld]
  dsimp only
  rw [steps_frozenAt hworld, ← tierLog_append_fresh, List.replicate_add, Nat.zero_max]
  unfold tierLog
  simp only [List.append_assoc, List.replicate_one, List.singleton_append]

end

end Supply

/-! ## §8. Laziness cannot be observed. -/

namespace Eager

/-- Why a step goes below a tier: it is put to a level further down, or the
tier misses what it looks up. -/
theorem miss_of_lt_reach {tiers : List Tier} {s : Step} {k : Nat} (h : k < reach tiers s) :
    k < s.level ∨ ∃ id tier, s.sought = some id ∧ tiers[k]? = some tier
      ∧ tier.publicEntity? id = none := by
  unfold reach at h
  by_cases hlevel : k < s.level
  · exact .inl hlevel
  · refine .inr ?_
    cases hs : s.sought with
    | none =>
      rw [hs] at h
      simp only [Option.elim_none] at h
      omega
    | some id =>
      rw [hs] at h
      simp only [Option.elim_some, further] at h
      have hk : k < tiers.length := by omega
      refine ⟨id, tiers[k], rfl, List.getElem?_eq_getElem hk, ?_⟩
      -- the search passes the tier on its way down
      have hpassed : k - s.level < (tiers.drop s.level).findIdx (Tier.has id) := by omega
      have hmiss := List.not_of_lt_findIdx hpassed
      have hidx : s.level + (k - s.level) = k := by omega
      simp only [List.getElem_drop, hidx, Tier.has] at hmiss
      simpa using hmiss

theorem exists_lt_reach {tiers : List Tier} {ss : List Step} {k : Nat}
    (h : k < reachAll tiers ss) : ∃ s ∈ ss, k < reach tiers s := by
  induction ss with
  | nil => exact absurd h (Nat.not_lt_zero k)
  | cons s ss ih =>
    have hmax : reachAll tiers (s :: ss) = max (reach tiers s) (reachAll tiers ss) := rfl
    rw [hmax] at h
    by_cases hs : k < reach tiers s
    · exact ⟨s, List.mem_cons_self, hs⟩
    · obtain ⟨s', hs', hlt⟩ := ih (by omega)
      exact ⟨s', List.mem_cons_of_mem _ hs', hlt⟩

end Eager

namespace Context

/-- A frozen context answers every step as if all of its tiers had been loaded
at once.  It has loaded the tiers down to some level, each once and in order,
and every tier below the first because a step was put below the tier above
it, or that tier missed what the step looked up. -/
theorem steps_eq_eager (around : Surroundings) (settings : Settings) (uris : List String)
    (world : World) (ss : List Step) :
    let supply : Supply := ⟨world.store.read, around, uris⟩
    let tiers := supply.tiers settings
    let run := (new around settings).steps world (uris.map .add ++ .freezeNow :: ss)
    run.1.2 = List.replicate (uris.length + 1) .accepted ++ ss.map (Eager.answer around.host tiers)
      ∧ run.2 = ((supply.logs settings).take (Eager.reachAll tiers ss + 1)).flatten
      ∧ ∀ k, k < Eager.reachAll tiers ss → ∃ s ∈ ss, k < s.level
        ∨ ∃ id tier, s.sought = some id ∧ tiers[k]? = some tier
          ∧ tier.publicEntity? id = none := by
  intro supply tiers run
  have hrun : run = _ := supply.steps_new rfl settings ss
  rw [hrun]
  refine ⟨rfl, rfl, fun k hk => ?_⟩
  obtain ⟨s, hs, hlt⟩ := Eager.exists_lt_reach hk
  exact ⟨s, hs, Eager.miss_of_lt_reach hlt⟩

end Context

end Phrasebook
