/-
  Phrasebook.Proofs.Context.Reordered
  ────────────────────────────────
  **CONTEXTS THAT STORE THEIR DEFINITIONS IN ANOTHER ORDER.**

  Two contexts that differ only in the order of the definitions in their tiers
  go through the same steps with the same answers, and differ in nothing else
  afterwards:

      Errand.Alike      —  the same is seen of two errands, and their results
                           are related
      Context.Reordered —  the same tiers, with their definitions reordered
      step_reordered    —  what one step does to both
      steps_reordered   —  what a run does to both, by induction
      nearest_names_are_suggested
                        —  which names are suggested, and that no order of the
                           available ones shows in an answer
-/
import Phrasebook.Proofs.Context.Below
import Phrasebook.Proofs.Context.Carry
import Phrasebook.Proofs.Registry.Reordered

namespace Phrasebook

/-! ## §1. Errands that look alike. -/

namespace Errand

variable {α β γ δ : Type} {answers : String → Reading}

/-- The same is seen of the two errands, and their results are related. -/
def Alike (answers : String → Reading) (R : α → β → Prop) (e : Errand α) (e' : Errand β) : Prop :=
  R (e.run answers).1 (e'.run answers).1 ∧ (e.run answers).2 = (e'.run answers).2

theorem Alike.bind {R : α → β → Prop} {S : γ → δ → Prop} {e : Errand α} {e' : Errand β}
    {f : α → Errand γ} {f' : β → Errand δ} (h : Alike answers R e e')
    (hf : ∀ a b, R a b → Alike answers S (f a) (f' b)) :
    Alike answers S (e >>= f) (e' >>= f') := by
  obtain ⟨hresult, hlog⟩ := h
  obtain ⟨hlater, hlaterLog⟩ := hf _ _ hresult
  unfold Alike
  rw [bind_eq, bind_eq, run_bind, run_bind, hlog, hlaterLog]
  exact ⟨hlater, rfl⟩

theorem Alike.pure {R : α → β → Prop} {a : α} {b : β} (h : R a b) :
    Alike answers R (Pure.pure a) (Pure.pure b) :=
  ⟨h, rfl⟩

/-- Results with related first parts, and the same second part. -/
def SameResult (R : α → β → Prop) (r : α × γ) (s : β × γ) : Prop :=
  R r.1 s.1 ∧ r.2 = s.2

end Errand

open Errand (Alike SameResult)

/-! ## §2. Tiers. -/

/-- The same tier, with its definitions in another order. -/
structure Tier.Reordered (t u : Tier) : Prop where
  settings : t.settings = u.settings
  uris : t.uris = u.uris
  registry : t.registry.Reordered u.registry
  globals : t.globals = u.globals
  failures : t.failures = u.failures

namespace Tier.Reordered

variable {t u : Tier}

theorem refl (h : t.registry.ids.Nodup) : t.Reordered t :=
  ⟨rfl, rfl, .refl h, rfl, rfl⟩

theorem publicEntity?_eq (h : t.Reordered u) (id : String) :
    t.publicEntity? id = u.publicEntity? id := by
  unfold publicEntity?
  rw [h.registry.findEntity?_eq]

theorem publicIds_eq (h : t.Reordered u) : t.publicIds = u.publicIds :=
  h.registry.publicIds_eq

theorem summary_eq (h : t.Reordered u) : Context.Summary.ofTier t = Context.Summary.ofTier u := by
  unfold Context.Summary.ofTier
  rw [h.settings, h.failures]

theorem environment (h : t.Reordered u) (host : Host) :
    (t.environment host).Reordered (u.environment host) :=
  ⟨h.registry, h.globals, rfl⟩

end Tier.Reordered

/-- Every tier that is loaded has each name once. -/
theorem imparts_nodup : Imparts (fun _ => True) fun tier => tier.registry.ids.Nodup where
  entries _ _ _ := trivial
  tiers := by
    intro around settings uris loads tier _ htier
    have hnodup : (Registry.empty.addEntries (Tier.loadedEntries loads)).1.ids.Nodup := by
      rw [Registry.addEntries_fst]
      exact Registry.compile_nodup .nil
    unfold Tier.ofLoads at htier
    split at htier
    · exact nomatch htier
    · next registry hadd =>
      rw [hadd] at hnodup
      rw [← Except.ok.inj htier]
      exact hnodup

/-! ## §3. Chains. -/

/-- The same level, with the definitions of its tier in another order. -/
inductive Level.Reordered : Level → Level → Prop where
  | planned (settings : Settings) : Reordered (.planned settings) (.planned settings)
  | built {t u : Tier} (h : t.Reordered u) : Reordered (.built t) (.built u)

/-- The same chain, with the definitions of its tiers in another order. -/
structure Chain.Reordered (c d : Chain) : Prop where
  tier : c.tier.Reordered d.tier
  below : List.Forall₂ Level.Reordered c.below d.below

/-- What a search comes to in the same tiers with their definitions in another
order. -/
inductive Finding.Reordered : Finding → Finding → Prop where
  | found (e : Entity) {t u : Tier} (h : t.Reordered u) : Reordered (.found e t) (.found e u)
  | missed {t u : Tier} (h : t.Reordered u) : Reordered (.missed t) (.missed u)

section

variable {α : Type} {answers : String → Reading} {around : Surroundings}
  {levels others : List Level}

theorem Level.Reordered.tier_alike {level other : Level} (h : level.Reordered other)
    (uris : List String) : Alike answers (Option.Rel Tier.Reordered) (level.tier around uris)
      (other.tier around uris) := by
  cases h with
  | planned settings =>
    have hnodup := (Level.tier_carries imparts_nodup around uris
      fun tier (h : Level.planned settings = .built tier) => nomatch h).run answers
    refine ⟨?_, rfl⟩
    cases htier : (((Level.planned settings).tier around uris).run answers).1 with
    | none => exact .none
    | some tier => exact .some (.refl (hnodup tier htier))
  | built h => exact .pure (.some h)

theorem Level.atDepth_alike {act : Chain → Errand (Chain × α)}
    (hact : ∀ c d : Chain, c.Reordered d →
      Alike answers (SameResult Chain.Reordered) (act c) (act d))
    (h : List.Forall₂ Level.Reordered levels others) :
    ∀ n uris, Alike answers (SameResult (List.Forall₂ Level.Reordered))
      (Level.atDepth around act n uris levels) (Level.atDepth around act n uris others) := by
  induction h with
  | nil =>
    intro n uris
    cases n <;> exact .pure ⟨.nil, rfl⟩
  | cons hlevel hlater ih =>
    intro n uris
    rw [Level.atDepth, Level.atDepth]
    refine (hlevel.tier_alike uris).bind fun o o' ho => ?_
    cases ho with
    | none => exact .pure ⟨.nil, rfl⟩
    | some htier =>
      cases n with
      | zero =>
        refine (hact _ _ ⟨htier, hlater⟩).bind fun r s hrs => ?_
        exact .pure ⟨.cons (.built hrs.1.tier) hrs.1.below, congrArg some hrs.2⟩
      | succ n =>
        dsimp only
        rw [htier.uris]
        refine (ih n _).bind fun r s hrs => ?_
        exact .pure ⟨.cons (.built htier) hrs.1, hrs.2⟩

theorem Chain.searchFrom_alike (id : String) (h : List.Forall₂ Level.Reordered levels others) :
    ∀ t u : Tier, t.Reordered u →
      Alike answers (fun r s => r.1.Reordered s.1 ∧ List.Forall₂ Level.Reordered r.2 s.2)
        (Chain.searchFrom around id t levels) (Chain.searchFrom around id u others) := by
  induction h with
  | nil =>
    intro t u htu
    cases hid : t.publicEntity? id with
    | some e =>
      rw [Chain.searchFrom_found hid, Chain.searchFrom_found (htu.publicEntity?_eq id ▸ hid)]
      exact .pure ⟨.found e htu, .nil⟩
    | none =>
      rw [Chain.searchFrom_last hid, Chain.searchFrom_last (htu.publicEntity?_eq id ▸ hid)]
      exact .pure ⟨.missed htu, .nil⟩
  | cons hlevel hlater ih =>
    intro t u htu
    cases hid : t.publicEntity? id with
    | some e =>
      rw [Chain.searchFrom_found hid, Chain.searchFrom_found (htu.publicEntity?_eq id ▸ hid)]
      exact .pure ⟨.found e htu, .cons hlevel hlater⟩
    | none =>
      -- both miss the entity, and go on at the next level
      rw [Chain.searchFrom_next hid, Chain.searchFrom_next (htu.publicEntity?_eq id ▸ hid),
          htu.uris]
      refine (hlevel.tier_alike _).bind fun o o' ho => ?_
      cases ho with
      | none => exact .pure ⟨.missed htu, .nil⟩
      | some htier =>
        refine (ih _ _ htier).bind fun r s hrs => ?_
        exact .pure ⟨hrs.1, .cons (.built htier) hrs.2⟩

/-- What is asked of an entity does not depend on the order of the
definitions. -/
theorem Asked.question_eq {make : α → Answer} {question : Context.Question α}
    (h : Asked make question) {env other : Environment} (henv : env.Reordered other) (e : Entity) :
    question env e = question other e := by
  have halike := henv.alike
  cases h with
  | text data => exact congrArg (Except.map Value.display) (halike.get data e)
  | attributeValue data name =>
    unfold Context.Question.attributeValue
    rw [halike.getAttribute]
  | attributeValues data => exact halike.getAttributes data e
  | whole data => exact halike.getEntity data e

theorem Finding.Reordered.answer_eq {f g : Finding} (h : f.Reordered g) {make : α → Answer}
    {question : Context.Question α} (hasked : Asked make question) (host : Host) (id : String) :
    f.answer host id question = g.answer host id question := by
  cases h with
  | found e h => exact hasked.question_eq (h.environment host) e
  | missed h =>
    simp only [Finding.answer, h.publicIds_eq]

theorem Chain.Reordered.lookup_alike {c d : Chain} (h : c.Reordered d) {make : α → Answer}
    {question : Context.Question α} (hasked : Asked make question) (id : String) :
    Alike answers (SameResult Chain.Reordered) (c.lookup around id question)
      (d.lookup around id question) := by
  have hsearch : Alike answers (fun r s => r.1.Reordered s.1 ∧ r.2.Reordered s.2)
      (c.search around id) (d.search around id) :=
    (Chain.searchFrom_alike id h.below _ _ h.tier).bind fun r s hrs =>
      .pure ⟨⟨h.tier, hrs.2⟩, hrs.1⟩
  exact hsearch.bind fun r s hrs => .pure ⟨hrs.1, hrs.2.answer_eq hasked around.host id⟩

end

/-! ## §4. Contexts. -/

namespace Context

/-- The same context, with the definitions of its tiers in another order. -/
inductive Reordered : Context → Context → Prop where
  | collecting {around : Surroundings} {settings : Settings} (resources : List Registration)
      {below below' : List Level} (hbelow : List.Forall₂ Level.Reordered below below') :
      Reordered ⟨around, settings, .collecting resources, below⟩
        ⟨around, settings, .collecting resources, below'⟩
  | frozen {around : Surroundings} {settings : Settings} {t u : Tier} (htier : t.Reordered u)
      {below below' : List Level} (hbelow : List.Forall₂ Level.Reordered below below') :
      Reordered ⟨around, settings, .frozen t, below⟩ ⟨around, settings, .frozen u, below'⟩

/-- Both contexts are changed alike, or stay as they are for the same reason. -/
def ChangedAlike (c d : Context) (r s : Except ContextError Context) : Prop :=
  (c.changed r).1.Reordered (d.changed s).1 ∧ (c.changed r).2 = (d.changed s).2

section

variable {answers : String → Reading} {c d : Context}

theorem Reordered.around_eq (h : c.Reordered d) : c.around = d.around := by
  cases h <;> rfl

theorem Reordered.settings_eq (h : c.Reordered d) : c.settings = d.settings := by
  cases h <;> rfl

/-- A change that is refused leaves both contexts as they are. -/
theorem Reordered.refused (h : c.Reordered d) (e : ContextError) :
    c.ChangedAlike d (.error e) (.error e) :=
  ⟨h, rfl⟩

theorem Reordered.add_alike (h : c.Reordered d) (answers : String → Reading) (uri : String) :
    Alike answers (c.ChangedAlike d) (c.add uri) (d.add uri) := by
  cases h with
  | collecting resources hbelow =>
    -- both load with the same settings, and register what comes of it
    have hload : ∀ load : Errand Loader.Loaded, Alike answers Eq load load := fun _ => ⟨rfl, rfl⟩
    refine (hload _).bind fun r s hrs => ?_
    obtain rfl := hrs
    exact .pure ⟨.collecting _ hbelow, rfl⟩
  | frozen htier hbelow => exact .pure (refused (.frozen htier hbelow) _)

theorem Reordered.addPending_alike (h : c.Reordered d) (hasRuntime : Bool) (uri : String) :
    c.ChangedAlike d (c.addPending hasRuntime uri) (d.addPending hasRuntime uri) := by
  cases h with
  | collecting resources hbelow =>
    cases hasRuntime with
    | true => exact ⟨.collecting _ hbelow, rfl⟩
    | false => exact refused (.collecting resources hbelow) _
  | frozen htier hbelow => exact refused (.frozen htier hbelow) _

/-- With the same loads both contexts are frozen as the same tier. -/
theorem settle_alike (answers : String → Reading) {around : Surroundings} {settings : Settings}
    (resources : List Registration) {below below' : List Level}
    (hbelow : List.Forall₂ Level.Reordered below below') (loads : List Loader.Loaded) :
    let c : Context := ⟨around, settings, .collecting resources, below⟩
    let d : Context := ⟨around, settings, .collecting resources, below'⟩
    Alike answers (c.ChangedAlike d) (c.settle loads) (d.settle loads) := by
  intro c d
  have huris : d.uris = c.uris := rfl
  unfold settle
  rw [huris]
  cases htier : Tier.ofLoads around settings c.uris loads with
  | error e => exact .pure (Reordered.refused (.collecting resources hbelow) _)
  | ok tier =>
    have hnodup : tier.registry.ids.Nodup := imparts_nodup.tiers (fun _ _ _ _ _ _ => trivial) htier
    exact ⟨⟨.frozen (.refl hnodup) hbelow, rfl⟩, rfl⟩

theorem Reordered.freezeNow_alike (h : c.Reordered d) (answers : String → Reading) :
    Alike answers (c.ChangedAlike d) c.freezeNow d.freezeNow := by
  cases h with
  | collecting resources hbelow =>
    unfold freezeNow
    dsimp only
    cases results? resources with
    | some loads => exact settle_alike answers resources hbelow loads
    | none => exact .pure (refused (.collecting resources hbelow) _)
  | frozen htier hbelow => exact .pure (refused (.frozen htier hbelow) _)

theorem Reordered.freeze_alike (h : c.Reordered d) (answers : String → Reading)
    (pace : Nat → Pace) :
    c.ChangedAlike d (c.freeze answers pace).1 (d.freeze answers pace).1
      ∧ (c.freeze answers pace).2 = (d.freeze answers pace).2 := by
  cases h with
  | @collecting around settings resources below below' hbelow =>
    -- what is pending is loaded with the same settings, and takes the same time
    let c : Context := ⟨around, settings, .collecting resources, below⟩
    let joined := joinAll settings.loadTimeout 0 (c.joinables answers pace resources)
    obtain ⟨hresult, hlog⟩ := settle_alike answers resources hbelow joined.1
    exact ⟨hresult, congrArg (interleave joined.2 ++ ·) hlog⟩
  | frozen htier hbelow => exact ⟨refused (.frozen htier hbelow) _, rfl⟩

/-! ## §5. What is asked of contexts. -/

theorem Reordered.atLevel_alike (h : c.Reordered d) {α : Type}
    {act : Chain → Errand (Chain × α)} (hact : ∀ c d : Chain, c.Reordered d →
      Alike answers (SameResult Chain.Reordered) (act c) (act d)) (level : Nat) :
    Alike answers (SameResult Reordered) (c.atLevel level act) (d.atLevel level act) := by
  cases h with
  | collecting resources hbelow =>
    cases level with
    | zero => exact .pure ⟨.collecting resources hbelow, rfl⟩
    | succ n =>
      refine (Level.atDepth_alike hact hbelow n _).bind fun r s hrs => ?_
      exact .pure ⟨.collecting resources hrs.1, congrArg (Option.map Except.ok) hrs.2⟩
  | @frozen around settings t u htier below below' hbelow =>
    cases level with
    | zero =>
      refine (hact ⟨t, below⟩ ⟨u, below'⟩ ⟨htier, hbelow⟩).bind fun r s hrs => ?_
      exact .pure ⟨.frozen hrs.1.tier hrs.1.below, congrArg (fun a => some (Except.ok a)) hrs.2⟩
    | succ n =>
      unfold atLevel uris
      dsimp only
      rw [htier.uris]
      refine (Level.atDepth_alike hact hbelow n u.uris).bind fun r s hrs => ?_
      exact .pure ⟨.frozen htier hrs.1, congrArg (Option.map Except.ok) hrs.2⟩

/-- What only looks at a tier sees the same. -/
theorem Reordered.look_alike (h : c.Reordered d) (answers : String → Reading) {α : Type}
    {look : Tier → α} (hlook : ∀ t u : Tier, t.Reordered u → look t = look u) (level : Nat) :
    Alike answers (SameResult Reordered)
      (c.atLevel level fun chain => pure (chain, look chain.tier))
      (d.atLevel level fun chain => pure (chain, look chain.tier)) :=
  h.atLevel_alike (fun _ _ hchain => .pure ⟨hchain, hlook _ _ hchain.tier⟩) level

theorem Reordered.ask_alike (h : c.Reordered d) {α : Type} {make : α → Answer}
    {question : Question α} (hasked : Asked make question) (level : Nat) (id : String) :
    Alike answers (SameResult Reordered) (c.ask level id question) (d.ask level id question) := by
  unfold ask
  rw [h.around_eq]
  refine (h.atLevel_alike (fun _ _ hchain => hchain.lookup_alike hasked id) level).bind
    fun r s hrs => ?_
  refine .pure ⟨hrs.1, ?_⟩
  rw [hrs.2]

end

/-! ## §6. Steps and runs. -/

/-- The contexts go on alike, with the same answer, and the same is seen. -/
def SteppedAlike {α : Type} (r s : (Context × α) × Log) : Prop :=
  r.1.1.Reordered s.1.1 ∧ r.1.2 = s.1.2 ∧ r.2 = s.2

section

variable {world : World} {c d : Context}

theorem asking_alike {α : Type} (make : α → Answer)
    {e e' : Errand (Context × Option (Except ContextError α))}
    (h : Alike world.store.read (SameResult Reordered) e e') :
    SteppedAlike (step.asking world make e) (step.asking world make e') :=
  ⟨h.1.1, congrArg (answerOf make) h.1.2, h.2⟩

theorem step_reordered (h : c.Reordered d) (world : World) (s : Step) :
    SteppedAlike (c.step world s) (d.step world s) := by
  cases s with
  | add uri =>
    obtain ⟨hchange, hlog⟩ := h.add_alike world.store.read uri
    exact ⟨hchange.1, hchange.2, hlog⟩
  | addPending uri =>
    have hchange := h.addPending_alike world.hasRuntime uri
    exact ⟨hchange.1, hchange.2, rfl⟩
  | freeze =>
    obtain ⟨hchange, hlog⟩ := h.freeze_alike world.store.read world.pace
    exact ⟨hchange.1, hchange.2, hlog⟩
  | freezeNow =>
    obtain ⟨hchange, hlog⟩ := h.freezeNow_alike world.store.read
    exact ⟨hchange.1, hchange.2, hlog⟩
  | summary level =>
    have hlook := h.look_alike world.store.read
      (fun _ _ htier => Tier.Reordered.summary_eq htier) level
    have hsummary : Alike world.store.read (SameResult Reordered) (c.summary level)
        (d.summary level) := by
      unfold summary
      rw [h.settings_eq]
      refine hlook.bind fun r s hrs => .pure ⟨hrs.1, ?_⟩
      rw [hrs.2]
    exact ⟨hsummary.1.1, congrArg (fun o => (o.map Answer.summary).getD .noLevel) hsummary.1.2,
      hsummary.2⟩
  | ids level =>
    exact asking_alike .names (h.look_alike _ (fun _ _ htier => htier.publicIds_eq) level)
  | get level id data => exact asking_alike .text (h.ask_alike (.text data) level id)
  | getAttribute level id name data =>
    exact asking_alike .value (h.ask_alike (.attributeValue data name) level id)
  | getAttributes level id data =>
    exact asking_alike .attributes (h.ask_alike (.attributeValues data) level id)
  | getEntity level id data => exact asking_alike .entity (h.ask_alike (.whole data) level id)

/-- Whatever is done with both contexts, they answer alike. -/
theorem steps_reordered (world : World) (ss : List Step) : ∀ c d : Context, c.Reordered d →
    SteppedAlike (c.steps world ss) (d.steps world ss) := by
  induction ss with
  | nil => exact fun c d h => ⟨h, rfl, rfl⟩
  | cons s ss ih =>
    intro c d h
    obtain ⟨hnext, hanswer, hlog⟩ := step_reordered h world s
    obtain ⟨hlast, hanswers, hlater⟩ := ih _ _ hnext
    refine ⟨hlast, ?_, ?_⟩
    · simp only [steps, hanswer, hanswers]
    · simp only [steps, hlog, hlater]

/-- Wherever a context has come to, each of its tiers has each name once, so
that it is one of the contexts that this is about. -/
theorem after_reordered (around : Surroundings) (settings : Settings)
    (history : List (World × Step)) :
    ((new around settings).after history).Reordered ((new around settings).after history) := by
  have hcarries := after_carries imparts_nodup around settings history
  generalize (new around settings).after history = c at hcarries
  obtain ⟨around, settings, stage, below⟩ := c
  have hbelow : List.Forall₂ Level.Reordered below below := by
    refine List.forall₂_same.2 fun level hlevel => ?_
    cases level with
    | planned s => exact .planned s
    | built tier => exact .built (.refl (hcarries.below tier hlevel))
  cases stage with
  | collecting resources => exact .collecting resources hbelow
  | frozen tier => exact .frozen (.refl (hcarries.tier tier rfl)) hbelow

end

end Context

/-! ## §7. Suggestions. -/

/-- **The nearest names are suggested, in whatever order they are stored.**
There is one list of suggestions for a name and the names that are available:
the three nearest ones within the limit, or all of them, by their distance and
then in alphabetical order.  The order of the available names does not matter.
So an unknown name in an expression is the same error however a registry
stores its definitions, and everything that is asked has the same answer; and
every context that can be come to goes on alike, step by step, with any order
of the definitions in its tiers. -/
theorem nearest_names_are_suggested :
    (∀ name available result,
        suggestions name available = result ↔ Suggested name available result)
      ∧ (∀ name other, IsNear name other
        ↔ name ≠ other ∧ ∃ k, k ≤ nearLimit name ∧ Edits k name.toList other.toList)
      ∧ (∀ name available stock, available.Perm stock →
        suggestions name available = suggestions name stock)
      ∧ (∀ (env : Environment) name, env.registry.find? name = none →
        ∃ near, Suggested name env.registry.ids near
          ∧ env.reference name = .error (.entityNotFound name near))
      ∧ (∀ env other : Environment, env.Reordered other → env.Alike other)
      ∧ (∀ around settings history,
        let c := (Context.new around settings).after history
        c.Reordered c)
      ∧ ∀ (c d : Context), c.Reordered d → ∀ (world : World) (ss : List Step),
        (c.steps world ss).1.2 = (d.steps world ss).1.2
          ∧ (c.steps world ss).2 = (d.steps world ss).2 := by
  refine ⟨fun _ _ _ => suggestions_eq_iff, fun _ _ => isNear_iff,
    fun _ _ _ => suggestions_eq_of_perm, fun env name hnone => ?_, fun _ _ h => h.alike,
    Context.after_reordered, fun c d h world ss => (Context.steps_reordered world ss c d h).2⟩
  refine ⟨_, suggestions_suggested name env.registry.ids, ?_⟩
  unfold Environment.reference
  rw [hnone]

namespace Shelf

/-- Jars with texts, and a label that names a jar that is not there. -/
def entries : List Entry :=
  .entity ⟨"label", false, some (.name "items"), [], []⟩
    :: ["item10", "item3", "item", "item2", "item1", "itm"].map fun id =>
      .entity ⟨id, false, some (.text id), [], []⟩

def front : Registry := (Registry.empty.addEntries entries).1

/-- The same definitions from the back. -/
def back : Registry := { front with definitions := front.definitions.reverse }

def environment (r : Registry) : Environment := ⟨r, [], fun _ _ _ => .ok .absent⟩

def settings : Settings := ⟨["en"], [], 30000⟩

def context (r : Registry) : Context where
  around := ⟨id, 0, [], fun _ _ _ => .ok .absent⟩
  settings
  stage := .frozen ⟨settings, [], r, [], []⟩
  below := []

def world : World where
  store := Memory.store []
  pace := Pace.prompt
  hasRuntime := false

/-- The label is the same error from the front and from the back, and so is
the jar itself: of four names one edit away the first three are suggested. -/
theorem shelf_reads_alike :
    let ss : List Step := [.get 0 "label" [], .get 0 "items" []]
    let missing : EvalError := .entityNotFound "items" ["item", "item1", "item2"]
    (front.ids.Perm back.ids ∧ front.ids ≠ back.ids ∧ front.find? "items" = none
        ∧ (environment front).Reordered (environment back)
        ∧ (context front).Reordered (context back))
      ∧ suggestions "items" front.ids = suggestions "items" back.ids
      ∧ (∃ near, Suggested "items" front.ids near
        ∧ (environment front).reference "items" = .error (.entityNotFound "items" near))
      ∧ (environment back).reference "items" = .error missing
      ∧ (environment front).Alike (environment back)
      ∧ ((context front).steps world ss).1.2 = ((context back).steps world ss).1.2
      ∧ ((context back).steps world ss).1.2
        = [.refused (.evaluation missing), .refused (.evaluation missing)] := by
  intro ss missing
  have hreordered : front.Reordered back :=
    ⟨by decide +kernel, (List.reverse_perm _).symm⟩
  have henv : (environment front).Reordered (environment back) := ⟨hreordered, rfl, rfl⟩
  have htier : Tier.Reordered ⟨settings, [], front, [], []⟩ ⟨settings, [], back, [], []⟩ :=
    ⟨rfl, rfl, hreordered, rfl, rfl⟩
  have hcontext : (context front).Reordered (context back) := .frozen htier .nil
  have hnone : front.find? "items" = none := by decide +kernel
  obtain ⟨-, -, hperm, hmissing, halike, -, hsteps⟩ := nearest_names_are_suggested
  refine ⟨⟨hreordered.ids_perm, by decide +kernel, hnone, henv, hcontext⟩,
    hperm _ _ _ hreordered.ids_perm, hmissing (environment front) "items" hnone, ?_,
    halike _ _ henv, (hsteps _ _ hcontext world ss).1, ?_⟩
  · rfl
  · rfl

end Shelf

end Phrasebook
