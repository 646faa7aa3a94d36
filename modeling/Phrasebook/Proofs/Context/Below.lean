/-
  Phrasebook.Proofs.Context.Below
  ────────────────────────────────
  **WHAT THE LEVELS BELOW ARE BUILT FROM.**

  The levels below a context are built from the resources that are registered
  when a step is first put to one of them, also if the context still collects
  then.  What is registered later does not reach them any more:

      Unasked, Serves   —  the levels before and after that step
      step_unasked, step_asked, step_serves
                        —  what each step does to them
      below_serves_when_first_asked
                        —  after every history, the levels below answer like a
                           context with the resources of that moment
-/
import Phrasebook.Proofs.Context.View
import Phrasebook.Store.Memory

namespace Phrasebook

open Phrasebook.Eager

/-! ## §1. The levels of a supply. -/

/-- The levels below are those of the next settings, and those below them. -/
theorem Settings.fallbacks_eq {s : Settings} (h : 1 < s.locales.length) :
    s.fallbacks = { s with locales := s.locales.drop 1 } ::
      ({ s with locales := s.locales.drop 1 } : Settings).fallbacks := by
  refine List.ext_getElem? fun n => ?_
  cases n with
  | zero =>
    rw [fallbacks_getElem?, if_pos (by omega)]
    rfl
  | succ n =>
    rw [List.getElem?_cons_succ, fallbacks_getElem?, fallbacks_getElem?]
    simp only [List.length_drop, List.drop_drop]
    by_cases hn : n + 1 + 1 < s.locales.length
    · rw [if_pos hn, if_pos (by omega), Nat.add_comm 1 (n + 1)]
    · rw [if_neg hn, if_neg (by omega)]

namespace Supply

variable (supply : Supply)

theorem tiers_levels (ss : List Settings) (j : Nat) {uris : List String}
    (h : uris = supply.uris ∨ 0 < j) :
    Level.tiers supply.answers supply.around uris (supply.levels j ss) = ss.map supply.tier := by
  induction ss generalizing j uris with
  | nil =>
    cases j <;> rfl
  | cons s ss ih =>
    have huris : supply.uris = (supply.tier s).uris := rfl
    cases j with
    | zero =>
      obtain rfl := h.resolve_right (Nat.lt_irrefl 0)
      obtain ⟨level, hlevels, hlevel⟩ := supply.levels_cons 0 s ss
      rw [hlevels, Level.tiers_cons (congrArg Prod.fst hlevel), ← huris, ih 0 (.inl rfl)]
      rfl
    | succ j =>
      rw [levels, Level.tiers_built, ← huris, ih j (.inl rfl)]
      rfl

/-- What the levels below a context stand for as long as none is built. -/
theorem tiers_below (answers : String → Reading) (around : Surroundings) (uris : List String)
    (settings : Settings) :
    Level.tiers answers around uris (Level.below settings)
      = settings.fallbacks.map (Supply.tier ⟨answers, around, uris⟩) := by
  have hlevels : Level.below settings
      = Supply.levels ⟨answers, around, uris⟩ 0 settings.fallbacks :=
    (levels_zero settings.fallbacks).symm
  rw [hlevels]
  exact tiers_levels ⟨answers, around, uris⟩ _ 0 (.inl rfl)

theorem tiersFrom_frozenAt (settings : Settings) (j level : Nat) :
    (supply.frozenAt settings j).tiersFrom supply.answers level
      = (supply.tiers settings).drop level := by
  have hbelow := supply.tiers_levels settings.fallbacks j (.inl rfl)
  rw [tiers_eq]
  cases level with
  | zero => exact congrArg (supply.tier settings :: ·) hbelow
  | succ n => exact congrArg (List.drop n) hbelow

end Supply

/-- The same question, put one level further down. -/
def Step.deeper : Step → Step
  | .summary level => .summary (level + 1)
  | .ids level => .ids (level + 1)
  | .get level id data => .get (level + 1) id data
  | .getAttribute level id name data => .getAttribute (level + 1) id name data
  | .getAttributes level id data => .getAttributes (level + 1) id data
  | .getEntity level id data => .getEntity (level + 1) id data
  | s => s

theorem Step.level_deeper {s : Step} (h : s.asks = true) : s.deeper.level = s.level + 1 := by
  cases s <;> first | rfl | exact nomatch h

theorem Step.atTop_deeper (s : Step) : s.deeper.atTop = s.atTop := by
  cases s <;> rfl

theorem Step.atTop_of_level {s : Step} (h : s.level = 0) : s.atTop = s := by
  cases s <;> first | rfl | (cases h; rfl)

/-- What a lookup asks of the entity that it finds, and what is made of it. -/
inductive Asked : {α : Type} → (α → Answer) → Context.Question α → Prop where
  | text (data : Bindings) : Asked .text (Context.Question.text data)
  | attributeValue (data : Bindings) (name : String) :
    Asked .value (Context.Question.attributeValue data name)
  | attributeValues (data : Bindings) : Asked .attributes (Context.Question.attributeValues data)
  | whole (data : Bindings) : Asked .entity (Context.Question.whole data)

/-- What is made of a value is no refusal. -/
theorem Asked.not_refused {α : Type} {make : α → Answer} {question : Context.Question α}
    (h : Asked make question) (v : α) (x : ContextError) : make v ≠ .refused x := by
  cases h <;> exact nofun

/-- A lookup is answered with what is made of its question. -/
theorem Eager.answer_asked {s : Step} {id : String} (hlevel : s.level = 0)
    (hsought : s.sought = some id) :
    ∃ (α : Type) (make : α → Answer) (question : Context.Question α), Asked make question
      ∧ ∀ host ts, answer host ts s = Context.answerOf make (ask host ts 0 id question) := by
  cases s with
  | add _ | addPending _ | freeze | freezeNow | summary _ | ids _ => exact nomatch hsought
  | get level _ data =>
    obtain rfl : level = 0 := hlevel
    obtain rfl := Option.some.inj hsought
    exact ⟨_, _, _, .text data, fun _ _ => rfl⟩
  | getAttribute level _ name data =>
    obtain rfl : level = 0 := hlevel
    obtain rfl := Option.some.inj hsought
    exact ⟨_, _, _, .attributeValue data name, fun _ _ => rfl⟩
  | getAttributes level _ data =>
    obtain rfl : level = 0 := hlevel
    obtain rfl := Option.some.inj hsought
    exact ⟨_, _, _, .attributeValues data, fun _ _ => rfl⟩
  | getEntity level _ data =>
    obtain rfl : level = 0 := hlevel
    obtain rfl := Option.some.inj hsought
    exact ⟨_, _, _, .whole data, fun _ _ => rfl⟩

/-- The answer to a lookup depends on what its search comes to alone. -/
theorem Eager.answer_congr {host : Host} {id : String} {ts others : List Tier}
    (h : finding id ts = finding id others) {s : Step} (hlevel : s.level = 0)
    (hsought : s.sought = some id) : answer host ts s = answer host others s := by
  obtain ⟨α, make, question, -, hanswer⟩ := answer_asked hlevel hsought
  rw [hanswer, hanswer, ask_eq_finding, ask_eq_finding, List.drop_zero, List.drop_zero, h]

namespace Context

variable {answers : String → Reading} {around : Surroundings} {settings : Settings} {c : Context}

/-! ## §2. The levels below. -/

/-- Nothing has been built below a context that collects, so that the levels
below still are for all of its resources. -/
structure Unasked (answers : String → Reading) (around : Surroundings) (settings : Settings)
    (c : Context) : Prop where
  surroundings : c.around = around
  below : c.isFrozen = false → c.below = Level.below settings
  tiers : Level.tiers answers around c.uris c.below
    = settings.fallbacks.map (Supply.tier ⟨answers, around, c.uris⟩)

/-- The levels below are for these resources, whatever is registered now. -/
structure Serves (answers : String → Reading) (around : Surroundings) (settings : Settings)
    (served : List String) (c : Context) : Prop where
  surroundings : c.around = around
  tiers : ∀ uris, Level.tiers answers around uris c.below
    = settings.fallbacks.map (Supply.tier ⟨answers, around, served⟩)

theorem new_unasked (answers : String → Reading) (around : Surroundings) (settings : Settings) :
    Unasked answers around settings (new around settings) where
  surroundings := rfl
  below _ := rfl
  tiers := Supply.tiers_below answers around [] settings

/-- A step that is not put to the levels below leaves them to be built. -/
theorem step_unasked {world : World} (h : Unasked world.store.read around settings c) {s : Step}
    (hlevel : s.level = 0) : Unasked world.store.read around settings (c.step world s).1.1 := by
  obtain ⟨rfl, hbelow, htiers⟩ := h
  cases hopen : c.isFrozen with
  | true =>
    have hbuilds := step_builds c world s (.inl hopen)
    refine ⟨hbuilds.around, fun hnot => ?_, ?_⟩
    · rw [hbuilds.isFrozen, hopen] at hnot
      exact nomatch hnot
    · rw [hbuilds.uris]
      exact hbuilds.keeps.here.trans htiers
  | false =>
    have hcollects := step_collects world hopen hlevel
    have hsame := hcollects.below.trans (hbelow hopen)
    refine ⟨hcollects.around, fun _ => hsame, ?_⟩
    rw [hsame]
    exact Supply.tiers_below _ _ _ settings

/-- The first step that is put to them fixes them. -/
theorem step_asked {world : World} (h : Unasked world.store.read around settings c) {s : Step}
    (hlevel : 0 < s.level) :
    Serves world.store.read around settings c.uris (c.step world s).1.1 := by
  obtain ⟨rfl, -, htiers⟩ := h
  have hbuilds := step_builds c world s (.inr hlevel)
  exact ⟨hbuilds.around, fun uris => (hbuilds.fixed hlevel uris).trans htiers⟩

/-- No step changes them then. -/
theorem step_serves {world : World} {served : List String}
    (h : Serves world.store.read around settings served c) (s : Step) :
    Serves world.store.read around settings served (c.step world s).1.1 := by
  obtain ⟨rfl, htiers⟩ := h
  rcases step_cases c world s with hbuilds | hcollects
  · refine ⟨hbuilds.around, fun uris => ?_⟩
    rcases hbuilds.keeps uris with hsame | hfixed
    · exact hsame.trans (htiers uris)
    · exact hfixed.trans (htiers c.uris)
  · refine ⟨hcollects.around, fun uris => ?_⟩
    rw [hcollects.below]
    exact htiers uris

/-! ## §3. Histories. -/

theorem after_unasked {history : List (World × Step)}
    (hworlds : ∀ h ∈ history, h.1.store.read = answers) (hlevels : ∀ h ∈ history, h.2.level = 0) :
    Unasked answers around settings ((new around settings).after history) := by
  suffices hfold : ∀ c, Unasked answers around settings c →
      Unasked answers around settings (c.after history) by
    exact hfold _ (new_unasked answers around settings)
  induction history with
  | nil => exact fun c h => h
  | cons first history ih =>
    intro c h
    obtain rfl := hworlds first List.mem_cons_self
    refine ih (fun h hh => hworlds h (List.mem_cons_of_mem _ hh))
      (fun h hh => hlevels h (List.mem_cons_of_mem _ hh)) _ ?_
    exact step_unasked h (hlevels first List.mem_cons_self)

theorem after_serves {served : List String} (history : List (World × Step))
    (hworlds : ∀ h ∈ history, h.1.store.read = answers) :
    ∀ c, Serves answers around settings served c →
      Serves answers around settings served (c.after history) := by
  induction history with
  | nil => exact fun c h => h
  | cons first history ih =>
    intro c h
    obtain rfl := hworlds first List.mem_cons_self
    exact ih (fun h hh => hworlds h (List.mem_cons_of_mem _ hh)) _ (step_serves h first.2)

/-- The part of a history before a step is put to the levels below. -/
def unasked (history : List (World × Step)) : List (World × Step) :=
  history.takeWhile fun h => h.2.level == 0

/-- The rest of the history. -/
def asked (history : List (World × Step)) : List (World × Step) :=
  history.dropWhile fun h => h.2.level == 0

/-- What the levels below stand for after a history. -/
theorem after_tiers {history : List (World × Step)}
    (hworlds : ∀ h ∈ history, h.1.store.read = answers) :
    Level.tiers answers around ((new around settings).after history).uris
        ((new around settings).after history).below
      = settings.fallbacks.map (Supply.tier
          ⟨answers, around, ((new around settings).after (unasked history)).uris⟩) := by
  have hsplit : unasked history ++ asked history = history := List.takeWhile_append_dropWhile
  have hbefore :
      Unasked answers around settings ((new around settings).after (unasked history)) := by
    refine after_unasked (fun h hh => hworlds h ((List.takeWhile_prefix _).subset hh))
      fun h hh => ?_
    simpa using List.mem_takeWhile_imp hh
  have hafter := after_append (new around settings) (unasked history) (asked history)
  rw [hsplit] at hafter
  cases hasked : asked history with
  | nil =>
    rw [hasked] at hafter
    rw [hafter]
    exact hbefore.tiers
  | cons first later =>
    have hmem : ∀ h ∈ first :: later, h ∈ history := by
      rw [← hasked]
      exact fun h hh => (List.dropWhile_suffix _).subset hh
    have hlevel : 0 < first.2.level := by
      have hnot := List.head?_dropWhile_not (fun h : World × Step => h.2.level == 0) history
      unfold asked at hasked
      rw [hasked] at hnot
      exact Nat.pos_of_ne_zero (by simpa using hnot)
    obtain rfl := hworlds first (hmem first List.mem_cons_self)
    have hserves := after_serves later (fun h hh => hworlds h (hmem h (List.mem_cons_of_mem _ hh)))
      _ (step_asked hbefore hlevel)
    rw [hasked] at hafter
    rw [hafter]
    exact hserves.tiers _

/-- The contexts below a context answer like one with the next locales that
has been given the resources registered when one of them was first asked, in
this order, or all of them if none was; and so does the context itself where
its own tier misses.  These are all resources if none is registered later. -/
theorem below_serves_when_first_asked (around : Surroundings) {settings : Settings}
    (hlocales : 1 < settings.locales.length) {history : List (World × Step)} {world : World}
    (hworlds : ∀ h ∈ history, h.1.store.read = world.store.read) :
    let c := (new around settings).after history
    let served := ((new around settings).after (unasked history)).uris
    let next := { settings with locales := settings.locales.drop 1 }
    let sub := ((new around next).steps world (served.map .add ++ [.freezeNow])).1.1
    (served <+: c.uris
        ∧ ((∀ h ∈ asked history, h.2.registers = false) → served = c.uris))
      ∧ (∀ s : Step, s.asks = true → (c.step world s.deeper).1.2 = (sub.step world s).1.2)
      ∧ ∀ tier, c.stage = .frozen tier →
          ∀ (s : Step) (id : String), s.level = 0 → s.sought = some id →
            tier.publicEntity? id = none → (c.step world s).1.2 = (sub.step world s).1.2 := by
  intro c served next sub
  let supply : Supply := ⟨world.store.read, around, served⟩
  have hsub : sub = supply.frozenAt next 0 := by
    have hrun := Supply.steps_new (show world.store.read = supply.answers from rfl) next []
    exact congrArg (fun run => run.1.1) hrun
  have haround : c.around = around := after_around _ history
  have htiers : Level.tiers world.store.read around c.uris c.below
      = settings.fallbacks.map supply.tier := after_tiers hworlds
  have hnext : settings.fallbacks.map supply.tier = supply.tiers next := by
    rw [Settings.fallbacks_eq hlocales, Supply.tiers_eq]
  rw [hnext] at htiers
  -- a step to the other context is answered from the same tiers
  have hanswer : ∀ s : Step, (sub.step world s).1.2
      = Eager.answer around.host ((supply.tiers next).drop s.level) s.atTop := by
    intro s
    rw [hsub, step_answer (supply.frozenAt next 0) world s (.inl rfl), supply.tiersFrom_frozenAt]
    rfl
  refine ⟨?_, fun s hasks => ?_, fun tier hs s id hlevel hsought hmiss => ?_⟩
  · have hsplit : unasked history ++ asked history = history := List.takeWhile_append_dropWhile
    have huris := after_uris ((new around settings).after (unasked history)) (asked history)
    rw [← after_append, hsplit] at huris
    exact ⟨huris.1, fun hnone => (huris.2 hnone).symm⟩
  · have hlevel := Step.level_deeper hasks
    rw [step_answer c world s.deeper (.inr (by omega)), hanswer, hlevel, Step.atTop_deeper,
      tiersFrom, haround, htiers]
  · rw [step_answer c world s (.inl (isFrozen_of hs)), hanswer, hlevel, tiersFrom_frozen hs,
      haround, htiers, List.drop_zero, Step.atTop_of_level hlevel, Supply.tiers_eq, List.map_cons]
    exact Eager.answer_congr (finding_next hmiss _ _) hlevel hsought

end Context

/-! ## §4. A text of the second locale only. -/

namespace Bye

open Phrasebook.Context

/-- The first locale has no text, the second one has one. -/
def world : World where
  store := Memory.store [("en", .ok "<bye \"Bye\">")]
  pace := Pace.prompt
  hasRuntime := false

def around : Surroundings where
  path := id
  importDepth := world.store.importDepth
  globals := []
  host _ _ _ := .ok .absent

def settings : Settings where
  locales := ["fr", "en"]
  schemes := ["\x7b\x7blocale\x7d\x7d"]
  loadTimeout := 30000

def history : List (World × Step) := [(world, .add "l10n:b"), (world, .freezeNow)]

/-- What the first locale misses is found in the second one. -/
theorem below_serves_bye :
    (1 < settings.locales.length ∧ ∀ h ∈ history, h.1.store.read = world.store.read)
      ∧ (∃ tier, ((new around settings).after history).stage = .frozen tier
        ∧ tier.publicEntity? "bye" = none)
      ∧ (((new around settings).after history).step world (.get 0 "bye" [])).1.2 = .text "Bye"
      ∧ (((new around settings).after history).step world (.get 1 "bye" [])).1.2 = .text "Bye" := by
  have hworlds : ∀ h ∈ history, h.1.store.read = world.store.read := by
    intro h hh
    simp only [history, List.mem_cons, List.not_mem_nil, or_false] at hh
    rcases hh with rfl | rfl <;> rfl
  have hlocales : 1 < settings.locales.length := by decide
  obtain ⟨-, hdeeper, hown⟩ := below_serves_when_first_asked around hlocales hworlds
  let supply : Supply := ⟨world.store.read, around, ["l10n:b"]⟩
  have hstage : ((new around settings).after history).stage = .frozen (supply.tier settings) := by
    have hrun := Supply.steps_new (show world.store.read = supply.answers from rfl) settings []
    exact congrArg (fun run => run.1.1.stage) hrun
  have hmiss : (supply.tier settings).publicEntity? "bye" = none := by cbv
  have hanswer : ((((new around { settings with locales := settings.locales.drop 1 }).steps world
      (((new around settings).after (unasked history)).uris.map .add ++ [.freezeNow])).1.1).step
        world (.get 0 "bye" [])).1.2 = .text "Bye" := by cbv
  have hmissed := hown _ hstage (.get 0 "bye" []) "bye" rfl rfl hmiss
  have hbelow := hdeeper (.get 0 "bye" []) rfl
  rw [hanswer] at hmissed hbelow
  exact ⟨⟨hlocales, hworlds⟩, ⟨_, hstage, hmiss⟩, hmissed, hbelow⟩

/-- What is registered after the second locale has been asked is not. -/
theorem registered_too_late :
    ((new around settings).steps world
        [.ids 1, .add "l10n:b", .freezeNow, .get 0 "bye" []]).1.2
      = [.names [], .accepted, .accepted, .refused (.evaluation (.entityNotFound "bye" []))]
    ∧ ((new around { settings with locales := settings.locales.drop 1 }).steps world
        [.add "l10n:b", .freezeNow, .get 0 "bye" []]).1.2
      = [.accepted, .accepted, .text "Bye"] := by
  constructor <;> cbv

end Bye

end Phrasebook
