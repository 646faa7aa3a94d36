/-
  Phrasebook.Proofs.Context.Private
  ────────────────────────────────
  **NAMES THAT CALLERS NEVER SEE.**

  Whatever texts a context has read and whatever has been done with it,
  callers get no entity with a local name, no macro and no local attribute,
  and none of these is listed or suggested to them:

      imparts_labels    —  every tier labels its entities by their names
      Withheld          —  the names that callers cannot ask for
      finding_cases     —  what a search comes to
      answer_withheld, answer_missing
                        —  withheld names are not found, and only they are not
      private_names_stay_inside
                        —  the answers of every context at every level
-/
import Phrasebook.Proofs.Context.Below
import Phrasebook.Proofs.Context.Carry
import Phrasebook.Proofs.Entry.Names
import Phrasebook.Proofs.Eval.Getters
import Phrasebook.Proofs.Eval.Missing
import Phrasebook.Proofs.Suggestion.Nearest

namespace Phrasebook

open Phrasebook.Eager

/-! ## §1. What is asked of an entity. -/

namespace Entity

variable {env : Environment} {data : Bindings} {e : Entity}

/-- The attributes that are given out are those that callers may see. -/
theorem getAttributes_public {vs : List (String × Value)} (h : e.getAttributes env data = .ok vs) :
    ∀ p ∈ vs, isLocalName p.1 = false := by
  obtain ⟨path, -, h⟩ := exists_of_bind_ok h
  have hnames : vs.map Prod.fst = e.attributeNames := attributeValues_names h
  intro p hp
  exact attributeNames_public _ (hnames ▸ List.mem_map_of_mem hp)

theorem getEntity_public {v : EntityValue} (h : e.getEntity env data = .ok v) :
    ∀ p ∈ v.attributes, isLocalName p.1 = false := by
  obtain ⟨value, -, h⟩ := exists_of_bind_ok h
  obtain ⟨vs, hattributes, h⟩ := exists_of_bind_ok h
  rw [← Except.ok.inj h]
  exact getAttributes_public hattributes

end Entity

/-- What can go wrong with a question is explained. -/
theorem Asked.explains {α : Type} {make : α → Answer} {question : Context.Question α}
    (h : Asked make question) (env : Environment) (e : Entity) :
    env.Explained (question env e) := by
  cases h with
  | text data =>
    exact explained_bind (e.get_explains env data) fun v => explained_of_quiet env (quiet_ok _)
  | attributeValue data name =>
    -- a local attribute is refused before anything is evaluated
    unfold Context.Question.attributeValue
    split
    · exact explained_of_quiet env nofun
    · exact e.getAttribute_explains env data name
  | attributeValues data => exact e.getAttributes_explains env data
  | whole data => exact e.getEntity_explains env data

/-! ## §2. Tiers with labels. -/

/-- What is read is labelled, and so is what is made of it. -/
theorem imparts_labels : Imparts Entry.Labelled fun tier => tier.registry.Labelled where
  entries := Resource.labelled_of_salvage
  tiers := by
    intro around settings uris loads tier hloads htier
    have hlabelled := Registry.addEntries_labelled (Tier.loadedEntries_holds hloads)
    unfold Tier.ofLoads at htier
    split at htier
    · exact nomatch htier
    · next registry hadd =>
      rw [hadd] at hlabelled
      rw [← Except.ok.inj htier]
      exact hlabelled

namespace Tier

variable {t : Tier} {id : String}

/-- A search stops at the tiers that offer the name. -/
theorem publicEntity?_eq_none_iff (h : t.registry.Labelled) :
    t.publicEntity? id = none ↔ ¬ t.registry.Offers id := by
  unfold publicEntity? Registry.Offers
  cases he : t.registry.findEntity? id with
  | none => exact iff_of_true rfl fun hoffers => nomatch hoffers.2
  | some e =>
    have hlabel := (Registry.labels_of_findEntity? h he).2
    dsimp only
    rw [hlabel]
    cases isLocalName id with
    | true => exact iff_of_true rfl fun hoffers => nomatch hoffers.1
    | false => exact iff_of_false nofun fun hnot => hnot ⟨rfl, e, rfl⟩

theorem findEntity?_of_publicEntity? {e : Entity} (he : t.publicEntity? id = some e) :
    ∃ stamp, t.registry.findEntity? id = some ⟨stamp, e⟩ := by
  unfold publicEntity? at he
  split at he
  · next stamped hfind =>
    split at he
    · exact nomatch he
    · obtain rfl := Option.some.inj he
      exact ⟨stamped.stamp, hfind⟩
  · exact nomatch he

/-- An entity that is found has the name that was asked for. -/
theorem id_of_publicEntity? (h : t.registry.Labelled) {e : Entity}
    (he : t.publicEntity? id = some e) : e.id = id := by
  obtain ⟨stamp, hfind⟩ := findEntity?_of_publicEntity? he
  exact (Registry.labels_of_findEntity? h hfind).1

/-- The name of an entity that is found is not missing. -/
theorem find?_of_publicEntity? {e : Entity} (he : t.publicEntity? id = some e) :
    t.registry.find? id ≠ none := by
  obtain ⟨stamp, hfind⟩ := findEntity?_of_publicEntity? he
  intro hnone
  unfold Registry.findEntity? at hfind
  rw [hnone] at hfind
  exact nomatch hfind

end Tier

/-- The name is local, or none of the tiers has an entity with it. -/
def Withheld (ts : List Tier) (id : String) : Prop :=
  isLocalName id = true ∨ ∀ t ∈ ts, t.registry.findEntity? id = none

theorem withheld_iff {ts : List Tier} (h : ∀ t ∈ ts, t.registry.Labelled) {id : String} :
    Withheld ts id ↔ ∀ t ∈ ts, t.publicEntity? id = none := by
  unfold Withheld
  constructor
  · intro hwithheld t ht
    refine (Tier.publicEntity?_eq_none_iff (h t ht)).2 fun hoffers => ?_
    obtain ⟨hpublic, e, he⟩ := hoffers
    rcases hwithheld with hlocal | hnone
    · rw [hpublic] at hlocal
      exact nomatch hlocal
    · rw [hnone t ht] at he
      exact nomatch he
  · intro hmiss
    cases hlocal : isLocalName id with
    | true => exact .inl rfl
    | false =>
      refine .inr fun t ht => Option.eq_none_iff_forall_ne_some.2 fun e he => ?_
      exact (Tier.publicEntity?_eq_none_iff (h t ht)).1 (hmiss t ht) ⟨hlocal, e, he⟩

namespace Eager

variable {host : Host} {id : String} {t last : Tier} {ts : List Tier} {e : Entity} {s : Step}

/-! ## §3. Searches. -/

/-- A search finds the entity in one of the tiers, or misses it in all. -/
theorem finding_cases (id : String) {ts : List Tier} (hts : ts ≠ []) :
    (∃ t ∈ ts, ∃ e, t.publicEntity? id = some e ∧ finding id ts = some (.found e t))
      ∨ (∀ t ∈ ts, t.publicEntity? id = none)
        ∧ ∃ last, ts.getLast? = some last ∧ finding id ts = some (.missed last) := by
  -- by induction on the tiers: a search that misses in one goes on in the next
  induction ts with
  | nil => exact absurd rfl hts
  | cons t ts ih =>
    cases h : t.publicEntity? id with
    | some e => exact .inl ⟨t, List.mem_cons_self, e, h, finding_found h ts⟩
    | none =>
      cases ts with
      | nil =>
        refine .inr ⟨fun t' ht' => ?_, t, rfl, finding_last h⟩
        rw [List.mem_singleton.1 ht', h]
      | cons t' ts =>
        rw [finding_next h]
        rcases ih nofun with ⟨u, hu, e, he, hfinding⟩ | ⟨hmiss, last, hlast, hfinding⟩
        · exact .inl ⟨u, List.mem_cons_of_mem _ hu, e, he, hfinding⟩
        · refine .inr ⟨fun u hu => ?_, last, ?_, hfinding⟩
          · rcases List.mem_cons.1 hu with rfl | hu
            · exact h
            · exact hmiss u hu
          · rw [List.getLast?_cons_cons, hlast]

section

variable {α : Type} {make : α → Answer} {question : Context.Question α}

/-- What is asked of an entity that is found. -/
theorem ask_found (h : finding id ts = some (.found e t)) (question : Context.Question α) :
    ask host ts 0 id question
      = some ((question (t.environment host) e).mapError ContextError.evaluation) := by
  rw [ask_eq_finding, List.drop_zero, h]
  rfl

/-- A search that misses fails with what the last tier suggests. -/
theorem ask_missed (h : finding id ts = some (.missed last)) (question : Context.Question α) :
    ask host ts 0 id question
      = some (.error (.evaluation (.entityNotFound id (suggestions id last.publicIds)))) := by
  rw [ask_eq_finding, List.drop_zero, h]
  rfl

/-- An answer to a question comes from the question. -/
theorem answerOf_cases {x : Except EvalError α} {a : Answer}
    (h : Context.answerOf make (some (x.mapError ContextError.evaluation)) = a) :
    (∃ v, x = .ok v ∧ make v = a) ∨ ∃ y, x = .error y ∧ .refused (.evaluation y) = a := by
  cases x with
  | ok v => exact .inl ⟨v, rfl, h⟩
  | error y => exact .inr ⟨y, rfl, h⟩

/-- An answer that is not refused has been made for an entity that is found. -/
theorem found_of_answer (hts : ts ≠ []) {a : Answer}
    (h : Context.answerOf make (ask host ts 0 id question) = a) (ha : ∀ x, .refused x ≠ a) :
    ∃ env e v, question env e = .ok v ∧ make v = a := by
  rcases finding_cases id hts with ⟨t, -, e, -, hfinding⟩ | ⟨-, last, -, hfinding⟩
  · rw [ask_found hfinding] at h
    rcases answerOf_cases h with ⟨v, hv, heq⟩ | ⟨y, -, heq⟩
    · exact ⟨_, e, v, hv, heq⟩
    · exact absurd heq (ha _)
  · rw [ask_missed hfinding] at h
    exact absurd h (ha _)

end

/-- A search that misses is answered with what the last tier suggests. -/
theorem answer_missed (h : finding id ts = some (.missed last)) (hlevel : s.level = 0)
    (hsought : s.sought = some id) : answer host ts s
      = .refused (.evaluation (.entityNotFound id (suggestions id last.publicIds))) := by
  obtain ⟨α, make, question, -, hanswer⟩ := answer_asked hlevel hsought
  rw [hanswer, ask_missed h]
  rfl

/-- An error about an entity that is found is explained in its tier. -/
theorem answer_explains (h : finding id ts = some (.found e t)) (hlevel : s.level = 0)
    (hsought : s.sought = some id) {x : EvalError}
    (hx : answer host ts s = .refused (.evaluation x)) : (t.environment host).Explains x := by
  obtain ⟨α, make, question, hasked, hanswer⟩ := answer_asked hlevel hsought
  rw [hanswer, ask_found h] at hx
  rcases answerOf_cases hx with ⟨v, -, hv⟩ | ⟨y, hy, heq⟩
  · exact absurd hv (hasked.not_refused v _)
  · cases heq
    exact hasked.explains _ e x hy

/-! ## §4. Answers of tiers with labels. -/

section

variable (hlabelled : ∀ t ∈ ts, t.registry.Labelled)

include hlabelled

/-- A name that is withheld is not found, and only names on offer are
suggested for it. -/
theorem answer_withheld (hts : ts ≠ []) (hwithheld : Withheld ts id) (hlevel : s.level = 0)
    (hsought : s.sought = some id) :
    ∃ near, answer host ts s = .refused (.evaluation (.entityNotFound id near))
      ∧ ∀ other ∈ near, ∃ last, ts.getLast? = some last ∧ last.registry.Offers other := by
  have hnone := (withheld_iff hlabelled).1 hwithheld
  rcases finding_cases id hts with ⟨t, ht, e, he, -⟩ | ⟨-, last, hlast, hfinding⟩
  · rw [hnone t ht] at he
    exact nomatch he
  · refine ⟨_, answer_missed hfinding hlevel hsought, fun other hother => ⟨last, hlast, ?_⟩⟩
    have hlabels := hlabelled last (List.mem_of_getLast? hlast)
    exact (Registry.mem_publicIds hlabels).1 (mem_of_mem_suggestions hother)

/-- Only a name that is withheld is not found, but for what the host program
says. -/
theorem answer_missing (hts : ts ≠ []) (hlevel : s.level = 0) (hsought : s.sought = some id)
    {near : List String}
    (h : answer host ts s = .refused (.evaluation (.entityNotFound id near))) :
    Withheld ts id
      ∨ ∃ f stamp arguments, host f stamp arguments = .error (.entityNotFound id near) := by
  rcases finding_cases id hts with ⟨t, -, e, he, hfinding⟩ | ⟨hmiss, -⟩
  · -- the name of the entity that was found is not missing where it is evaluated
    have hexplains := answer_explains hfinding hlevel hsought h
    exact .inr ((hexplains id near rfl).resolve_left (Tier.find?_of_publicEntity? he))
  · exact .inl ((withheld_iff hlabelled).2 hmiss)

/-- A local attribute of an entity that is found is not found itself. -/
theorem answer_localAttribute (hts : ts ≠ []) (hfound : ¬ Withheld ts id) {name : String}
    (hlocal : isLocalName name = true) (data : Bindings) :
    answer host ts (.getAttribute 0 id name data)
      = .refused (.evaluation (.attributeNotFound id name)) := by
  rcases finding_cases id hts with ⟨t, ht, e, he, hfinding⟩ | ⟨hmiss, -⟩
  · have hquestion : Context.Question.attributeValue data name (t.environment host) e
        = .error (.attributeNotFound id name) := by
      unfold Context.Question.attributeValue
      rw [if_pos hlocal, Tier.id_of_publicEntity? (hlabelled t ht) he]
    show Context.answerOf .value (ask host ts 0 id _) = _
    rw [ask_found hfinding, hquestion]
    rfl
  · exact absurd ((withheld_iff hlabelled).2 hmiss) hfound

end

/-- No attribute that is given out is local. -/
theorem answer_attributes_public (hts : ts ≠ []) {data : Bindings} {vs : List (String × Value)}
    (h : answer host ts (.getAttributes 0 id data) = .attributes vs) :
    ∀ p ∈ vs, isLocalName p.1 = false := by
  obtain ⟨env, e, values, hvalues, heq⟩ := found_of_answer hts h nofun
  cases heq
  exact Entity.getAttributes_public hvalues

theorem answer_entity_public (hts : ts ≠ []) {data : Bindings} {v : EntityValue}
    (h : answer host ts (.getEntity 0 id data) = .entity v) :
    ∀ p ∈ v.attributes, isLocalName p.1 = false := by
  obtain ⟨env, e, value, hvalue, heq⟩ := found_of_answer hts h nofun
  cases heq
  exact Entity.getEntity_public hvalue

/-- The first tier answers for the names that it offers. -/
theorem answer_listed (hlabelled : t.registry.Labelled) (hoffers : t.registry.Offers id)
    (below : List Tier) (hlevel : s.level = 0) (hsought : s.sought = some id) :
    answer host (t :: below) s = answer host [t] s := by
  cases he : t.publicEntity? id with
  | none => exact absurd hoffers ((Tier.publicEntity?_eq_none_iff hlabelled).1 he)
  | some e =>
    refine answer_congr ?_ hlevel hsought
    rw [finding_found he, finding_found he]

/-- The tiers below answer for all other names. -/
theorem answer_unlisted (hlabelled : t.registry.Labelled) (hnot : ¬ t.registry.Offers id)
    {below : List Tier} (hbelow : below ≠ []) (hlevel : s.level = 0)
    (hsought : s.sought = some id) : answer host (t :: below) s = answer host below s := by
  have hmiss := (Tier.publicEntity?_eq_none_iff hlabelled).2 hnot
  cases below with
  | nil => exact absurd rfl hbelow
  | cons t' below => exact answer_congr (finding_next hmiss t' below) hlevel hsought

end Eager

/-! ## §5. Contexts. -/

theorem Step.asks_of_sought {s : Step} {id : String} (h : s.sought = some id) : s.asks = true := by
  cases s <;> first | rfl | exact nomatch h

theorem Step.level_atTop (s : Step) : s.atTop.level = 0 := by
  cases s <;> rfl

theorem Step.sought_atTop (s : Step) : s.atTop.sought = s.sought := by
  cases s <;> rfl

namespace Context

variable {answers : String → Reading} {c : Context}

/-- The tiers of the next level are those below the first. -/
theorem tiersFrom_succ {level : Nat} {first : Tier} {below : List Tier}
    (h : c.tiersFrom answers level = first :: below) : c.tiersFrom answers (level + 1) = below := by
  cases level with
  | zero =>
    cases hs : c.stage with
    | collecting resources =>
      rw [tiersFrom, hs] at h
      exact absurd h.symm (List.cons_ne_nil _ _)
    | frozen tier =>
      rw [tiersFrom_frozen hs] at h
      exact (List.cons.inj h).2
  | succ n =>
    have hdrop : (Level.tiers answers c.around c.uris c.below).drop n = first :: below := h
    show (Level.tiers answers c.around c.uris c.below).drop (n + 1) = below
    rw [← List.drop_drop, hdrop]
    rfl

/-- There are tiers at every level that a context has. -/
theorem exists_tiersFrom (around : Surroundings) (settings : Settings)
    (history : List (World × Step)) (world : World) {level : Nat}
    (hfrozen : level = 0 → ((new around settings).after history).isFrozen = true)
    (hlevel : level < max 1 settings.locales.length) : ∃ first below,
      ((new around settings).after history).tiersFrom world.store.read level = first :: below := by
  cases level with
  | zero =>
    obtain ⟨tier, hs⟩ := exists_frozen (hfrozen rfl)
    exact ⟨tier, _, tiersFrom_frozen hs⟩
  | succ n =>
    have hsound := after_sound around settings history
    obtain ⟨failures, names, hsummary, -⟩ := (below_answers hsound world n).2 (by omega)
    rw [step_answer _ world (.summary (n + 1)) (.inr (Nat.succ_pos n))] at hsummary
    cases htiers : ((new around settings).after history).tiersFrom world.store.read (n + 1) with
    | cons first below => exact ⟨first, below, rfl⟩
    | nil =>
      -- without a tier, there would be no summary of it
      dsimp only [Step.level] at hsummary
      rw [htiers] at hsummary
      exact nomatch hsummary

/-- At a level with these tiers, callers learn nothing but what the tiers
offer. -/
structure Discreet (world : World) (c : Context) (level : Nat) (first : Tier)
    (below : List Tier) : Prop where
  tiers : c.tiersFrom world.store.read level = first :: below
  /-- A name that is withheld is not found, and only names on offer are
  suggested for it. -/
  withheld : ∀ (s : Step) (id : String), s.level = level → s.sought = some id →
    Withheld (first :: below) id →
      ∃ near, (c.step world s).1.2 = .refused (.evaluation (.entityNotFound id near))
        ∧ ∀ other ∈ near,
          ∃ last, (first :: below).getLast? = some last ∧ last.registry.Offers other
  /-- Other names are found, but the host program may say what it likes. -/
  missing : ∀ (s : Step) (id : String) (near : List String), s.level = level →
    s.sought = some id →
      (c.step world s).1.2 = .refused (.evaluation (.entityNotFound id near)) →
        Withheld (first :: below) id
          ∨ ∃ f stamp arguments, c.around.host f stamp arguments = .error (.entityNotFound id near)
  /-- No attribute that is given out is local. -/
  attributes : ∀ (id : String) (data : Bindings) (vs : List (String × Value)),
    (c.step world (.getAttributes level id data)).1.2 = .attributes vs →
      ∀ p ∈ vs, isLocalName p.1 = false
  entity : ∀ (id : String) (data : Bindings) (v : EntityValue),
    (c.step world (.getEntity level id data)).1.2 = .entity v →
      ∀ p ∈ v.attributes, isLocalName p.1 = false
  /-- A local attribute is not found where the entity is. -/
  localAttribute : ∀ (id name : String) (data : Bindings), isLocalName name = true →
    ¬ Withheld (first :: below) id →
      (c.step world (.getAttribute level id name data)).1.2
        = .refused (.evaluation (.attributeNotFound id name))
  /-- The names on offer in the first tier are listed, in order and each of
  them once. -/
  ids : ∃ names, (c.step world (.ids level)).1.2 = .names names
    ∧ names.Pairwise (· < ·) ∧ names.Nodup ∧ ∀ id, id ∈ names ↔ first.registry.Offers id
  /-- The first tier answers for them by itself. -/
  listed : ∀ (s : Step) (id : String), s.level = level → s.sought = some id →
    first.registry.Offers id → (c.step world s).1.2 = answer c.around.host [first] s.atTop
  /-- The next level answers for all others, if there is one. -/
  unlisted : ∀ (s : Step) (id : String), s.level = level → s.sought = some id →
    ¬ first.registry.Offers id → below ≠ [] →
      (c.step world s).1.2 = (c.step world s.deeper).1.2

/-- Every context is discreet, at every level that it has. -/
theorem private_names_stay_inside (around : Surroundings) (settings : Settings)
    (history : List (World × Step)) (world : World) {level : Nat}
    (hfrozen : level = 0 → ((new around settings).after history).isFrozen = true)
    (hlevel : level < max 1 settings.locales.length) : ∃ first below,
      Discreet world ((new around settings).after history) level first below := by
  obtain ⟨first, below, htiers⟩ := exists_tiersFrom around settings history world hfrozen hlevel
  have hlabelled := tiersFrom_carries imparts_labels
    (after_carries imparts_labels around settings history) world.store.read level
  rw [htiers] at hlabelled
  have hfirst := hlabelled first List.mem_cons_self
  have hbelow := tiersFrom_succ htiers
  have hopen : ((new around settings).after history).isFrozen = true ∨ 0 < level := by
    rcases Nat.eq_zero_or_pos level with hzero | hpos
    · exact .inl (hfrozen hzero)
    · exact .inr hpos
  generalize (new around settings).after history = c at htiers hbelow hopen
  have htiers_ne : first :: below ≠ [] := List.cons_ne_nil first below
  -- what is put to the level is put to the top of its tiers
  have hanswer : ∀ s : Step, s.level = level →
      (c.step world s).1.2 = answer c.around.host (first :: below) s.atTop := by
    rintro s rfl
    rw [step_answer c world s hopen, htiers]
  have hsought_atTop : ∀ {s : Step} {id : String}, s.sought = some id →
      s.atTop.sought = some id := fun hsought => by rw [Step.sought_atTop, hsought]
  refine ⟨first, below, ?_⟩
  constructor
  case tiers => exact htiers
  case withheld =>
    intro s id hs hsought hwithheld
    rw [hanswer s hs]
    exact answer_withheld hlabelled htiers_ne hwithheld s.level_atTop (hsought_atTop hsought)
  case missing =>
    intro s id near hs hsought h
    rw [hanswer s hs] at h
    exact answer_missing hlabelled htiers_ne s.level_atTop (hsought_atTop hsought) h
  case attributes =>
    intro id data vs hvs
    rw [hanswer _ rfl] at hvs
    exact answer_attributes_public htiers_ne hvs
  case entity =>
    intro id data v hv
    rw [hanswer _ rfl] at hv
    exact answer_entity_public htiers_ne hv
  case localAttribute =>
    intro id name data hlocal hfound
    rw [hanswer _ rfl]
    exact answer_localAttribute hlabelled htiers_ne hfound hlocal data
  case ids =>
    exact ⟨first.publicIds, hanswer (.ids level) rfl, Registry.publicIds_sorted hfirst,
      Registry.publicIds_nodup hfirst, fun id => Registry.mem_publicIds hfirst⟩
  case listed =>
    intro s id hs hsought hoffers
    rw [hanswer s hs]
    exact answer_listed hfirst hoffers below s.level_atTop (hsought_atTop hsought)
  case unlisted =>
    intro s id hs hsought hnot hmore
    have hdown := Step.level_deeper (Step.asks_of_sought hsought)
    rw [hanswer s hs, step_answer c world s.deeper (.inr (by omega)), hdown, hs, hbelow,
      Step.atTop_deeper]
    exact answer_unlisted hfirst hnot hmore s.level_atTop (hsought_atTop hsought)

end Context

/-! ## §6. A text with private names. -/

namespace Drawer

open Phrasebook.Context

/-- A local entity, a macro, and an entity with a local attribute. -/
def world : World where
  store := Memory.store [("en", .ok "<_a \"1\"> <m() \x7b 1 \x7d> <b \"2\" _k: \"3\">")]
  pace := Pace.prompt
  hasRuntime := false

def around : Surroundings where
  path := id
  importDepth := world.store.importDepth
  globals := []
  host _ _ _ := .ok .absent

def settings : Settings where
  locales := ["en"]
  schemes := ["\x7b\x7blocale\x7d\x7d"]
  loadTimeout := 30000

def history : List (World × Step) := [(world, .add "l10n:b"), (world, .freezeNow)]

def supply : Supply := ⟨world.store.read, around, ["l10n:b"]⟩

theorem after_eq : (new around settings).after history = supply.frozenAt settings 0 := by
  have hrun := Supply.steps_new (show world.store.read = supply.answers from rfl) settings []
  exact congrArg (fun run => run.1.1) hrun

theorem found_b : ((supply.tier settings).registry.findEntity? "b").map (fun e => e.it.id)
    = some "b" := by
  cbv

/-- Neither the local entity nor the macro nor the local attribute is found. -/
theorem drawer_stays_shut :
    ((0 = 0 → ((new around settings).after history).isFrozen = true)
        ∧ 0 < max 1 settings.locales.length)
      ∧ (∃ near, (((new around settings).after history).step world (.get 0 "_a" [])).1.2
          = .refused (.evaluation (.entityNotFound "_a" near)))
      ∧ (∃ near, (((new around settings).after history).step world (.get 0 "m" [])).1.2
          = .refused (.evaluation (.entityNotFound "m" near)))
      ∧ (((new around settings).after history).step world (.getAttribute 0 "b" "_k" [])).1.2
          = .refused (.evaluation (.attributeNotFound "b" "_k")) := by
  have hfrozen : 0 = 0 → ((new around settings).after history).isFrozen = true := by
    rw [after_eq]
    exact fun _ => rfl
  have hlevel : 0 < max 1 settings.locales.length := by decide
  obtain ⟨first, below, hdiscreet⟩ :=
    private_names_stay_inside around settings history world hfrozen hlevel
  have htiers : first :: below = [supply.tier settings] := by
    rw [← hdiscreet.tiers, after_eq]
    exact supply.tiersFrom_frozenAt settings 0 0
  have hmacro : Withheld (first :: below) "m" := by
    rw [htiers]
    refine .inr fun t ht => ?_
    rw [List.mem_singleton.1 ht]
    cbv
  have hfound : ¬ Withheld (first :: below) "b" := by
    rw [htiers]
    rintro (hlocal | hnone)
    · exact absurd hlocal (by decide)
    · have hsome := found_b
      rw [hnone _ List.mem_cons_self] at hsome
      exact absurd hsome.symm (Option.some_ne_none _)
  obtain ⟨near, ha, -⟩ := hdiscreet.withheld (.get 0 "_a" []) "_a" rfl rfl (.inl (by decide))
  obtain ⟨others, hm, -⟩ := hdiscreet.withheld (.get 0 "m" []) "m" rfl rfl hmacro
  have hk := hdiscreet.localAttribute "b" "_k" [] (by decide) hfound
  exact ⟨⟨hfrozen, hlevel⟩, ⟨near, ha⟩, ⟨others, hm⟩, hk⟩

end Drawer

end Phrasebook
