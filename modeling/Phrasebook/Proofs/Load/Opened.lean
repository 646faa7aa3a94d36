/-
  Phrasebook.Proofs.Load.Opened
  ────────────────────────────────
  **THE TEXTS THAT A LOAD OPENS.**

  A load announces the syntax errors of the texts that it opens, and nothing
  else.  A text comes before the texts of its imports, which come in the order
  of the source, each as often as it is imported; a load that fails opens
  nothing, and nothing is opened for an import that is left out:

      Opens           —  the texts, without any bound on how deep imports go
      Opens.unique    —  there are no others
      loads_open      —  what a load announces, by induction on its bound
      load_announces  —  whatever it reads, it never announces a tier
-/
import Phrasebook.Proofs.Load.Blocking

namespace Phrasebook

/-! ## §1. What errands announce. -/

namespace Errand

variable {α β : Type}

/-- Every event that the errand announces has the property. -/
def Announces (P : Event → Prop) : Errand α → Prop
  | .done _ => True
  | .read _ next => ∀ answer, Announces P (next answer)
  | .announce event next => P event ∧ Announces P next

namespace Announces

variable {P : Event → Prop}

theorem bind {e : Errand α} {f : α → Errand β} (he : e.Announces P)
    (hf : ∀ a, (f a).Announces P) : (e >>= f).Announces P := by
  induction e with
  | done a => exact hf a
  | read path next ih => exact fun answer => ih answer (he answer)
  | announce event next ih => exact ⟨he.1, ih he.2⟩

theorem run {e : Errand α} (he : e.Announces P) (answers : String → Reading) :
    ∀ event, .event event ∈ (e.run answers).2 → P event := by
  induction e with
  | done a => exact fun event h => absurd h List.not_mem_nil
  | read path next ih =>
    intro event h
    rcases List.mem_cons.1 h with h | h
    · exact nomatch h
    · exact ih _ (he _) event h
  | announce event next ih =>
    intro event' h
    rcases List.mem_cons.1 h with h | h
    · obtain rfl := Note.event.inj h
      exact he.1
    · exact ih he.2 event' h

theorem course {e : Errand α} (he : e.Announces P) (answers : String → Reading) (pace : Pace) :
    ∀ wakings event, .event event ∈ (e.course answers pace wakings).log → P event := by
  induction e with
  | done a => exact fun wakings event h => absurd h List.not_mem_nil
  | announce event next ih =>
    intro wakings event' h
    rw [Errand.course, Course.log_noting] at h
    rcases List.mem_cons.1 h with h | h
    · obtain rfl := Note.event.inj h
      exact he.1
    · exact ih he.2 wakings event' h
  | read path next ih =>
    intro wakings event h
    -- a load that breaks off announces nothing any more, and every other one reads on
    have hreading : ∀ wakings, .event event ∈ (if pace.breaksOff path
          then Course.ending wakings none
          else ((next (answers path)).course answers pace wakings).noting (.read path)).log →
        P event := by
      intro wakings hread
      split at hread
      · exact absurd hread List.not_mem_nil
      · rw [Course.log_noting] at hread
        rcases List.mem_cons.1 hread with hread | hread
        · exact Note.noConfusion hread
        · exact ih _ (he _) wakings event hread
    rw [Errand.course] at h
    cases hwait : pace.wait path with
    | none =>
      rw [hwait] at h
      exact hreading _ h
    | some duration =>
      rw [hwait] at h
      exact hreading _ h

end Announces

end Errand

/-- Joining does no work but that of the loads. -/
theorem joinAll_work {allowed : Nat} {js : List Joinable} {note : Note} : ∀ {now : Nat},
    note ∈ interleave (joinAll allowed now js).2 →
    ∃ uri course, .pending uri course ∈ js ∧ note ∈ course.log := by
  have hstretch : ∀ {now : Nat} {s : Stretch}, s ∈ (joinAll allowed now js).2 →
      ∃ uri course, .pending uri course ∈ js ∧ s ∈ course.stretches := by
    intro now s hs
    induction js generalizing now with
    | nil => exact absurd hs List.not_mem_nil
    | cons j js ih =>
      rcases List.mem_append.1 hs with hs | hs
      · cases j with
        | loaded result => exact absurd hs List.not_mem_nil
        | pending uri course =>
          refine ⟨uri, course, List.mem_cons_self, ?_⟩
          dsimp only at hs
          split at hs
          · exact hs
          · exact (List.mem_filter.1 hs).1
      · obtain ⟨uri, course, hmem, hwork⟩ := ih hs
        exact ⟨uri, course, List.mem_cons_of_mem _ hmem, hwork⟩
  intro now hnote
  obtain ⟨s, hs, hlog⟩ := List.mem_flatMap.1 hnote
  obtain ⟨uri, course, hmem, hwork⟩ := hstretch (mem_sortBy.1 hs)
  exact ⟨uri, course, hmem, List.mem_flatMap.2 ⟨s, hwork, hlog⟩⟩

namespace Loader

/-! ## §2. Loads announce no tier. -/

/-- The event is a syntax error. -/
def IsDiagnostic (event : Event) : Prop :=
  ∃ e, event = .syntaxError e

theorem fetch_announces (loader : Loader) (uri : String) :
    (loader.fetch uri).Announces IsDiagnostic := by
  intro answer
  cases answer with
  | ok text => trivial
  | error e => cases e <;> trivial

theorem fetchFirst_announces (loader : Loader) (uris : List String) : ∀ failure : FetchError,
    (loader.fetchFirst failure uris).Announces IsDiagnostic := by
  induction uris with
  | nil => exact fun failure => trivial
  | cons uri uris ih =>
    intro failure
    refine .bind (loader.fetch_announces uri) fun fetched => ?_
    cases fetched with
    | ok text => trivial
    | error e => exact ih e

theorem reportAll_announces (errors : List SyntaxError) :
    (Errand.reportAll errors).Announces IsDiagnostic := by
  induction errors with
  | nil => trivial
  | cons e errors ih => exact ⟨⟨e, rfl⟩, ih⟩

/-- What has been loaded for an import, if anything, goes before the later
entries. -/
theorem expand_importing (load : String → Errand Loaded) (around : List String) (uri : String)
    (entries : List Entry) :
    expand load around (.importing uri :: entries)
      = (if uri ∈ around then pure (.ok []) else load uri) >>= fun imported =>
          expand load around entries >>= fun later =>
            pure (imported.toOption.getD [] ++ later) := by
  rw [expand]
  split
  · rfl
  · refine congrArg _ (funext fun imported => ?_)
    cases imported <;> rfl

theorem expand_announces {load : String → Errand Loaded}
    (hload : ∀ uri, (load uri).Announces IsDiagnostic) (around : List String)
    (entries : List Entry) : (expand load around entries).Announces IsDiagnostic := by
  induction entries with
  | nil => trivial
  | cons entry entries ih =>
    cases entry with
    | importing uri =>
      have hinside : (if uri ∈ around then pure (.ok []) else load uri : Errand Loaded).Announces
          IsDiagnostic := by
        split
        · trivial
        · exact hload uri
      rw [expand_importing]
      exact .bind hinside fun imported => .bind ih fun later => trivial
    | entity _ | macroDef _ | comment _ | junk _ => exact .bind ih fun later => trivial

/-- Whatever is read, a load announces syntax errors at most. -/
theorem loadWithin_announces (loader : Loader) (depth : Nat) : ∀ around uri,
    (loader.loadWithin depth around uri).Announces IsDiagnostic := by
  induction depth with
  | zero => exact fun around uri => trivial
  | succ depth ih =>
    intro around uri
    unfold loadWithin
    split
    · trivial
    · refine .bind (loader.fetchFirst_announces _ _) fun fetched => ?_
      cases fetched with
      | error e => trivial
      | ok text =>
        refine .bind (reportAll_announces _) fun _ => ?_
        exact .bind (expand_announces (ih _) _ _) fun entries => trivial

theorem load_announces (loader : Loader) (uri : String) :
    (loader.load uri).Announces IsDiagnostic :=
  loader.loadWithin_announces _ _ _

/-! ## §3. The texts. -/

/-- What is announced of a text. -/
def diagnostics (text : String) : List Event :=
  (Resource.salvage text).errors.map .syntaxError

/-- What is opened for an entry: for an import the texts of the resource that
it names, and none if that is being loaded around it. -/
def openedFor (around : List String) (inside : String → List String) : Entry → List String
  | .importing uri => if uri ∈ around then [] else inside uri
  | _ => []

theorem openedFor_importing (around : List String) (inside : String → List String) (uri : String) :
    openedFor around inside (.importing uri) = if uri ∈ around then [] else inside uri :=
  rfl

/-- The texts that the load of a resource opens, inside of the resources
`around`. -/
inductive Opens (loader : Loader) (answers : String → Reading) :
    (around : List String) → (uri : String) → (texts : List String) → Prop where
  | malformed {around : List String} {uri : String} {e : MalformedReference}
      (h : resolve uri loader.locale loader.schemes = .error e) :
      Opens loader answers around uri []
  | unfetched {around : List String} {uri : String} {candidates : List String}
      (h : resolve uri loader.locale loader.schemes = .ok candidates)
      (hnone : loader.firstText answers candidates = none) :
      Opens loader answers around uri []
  /-- The text of the first candidate that has one, and then, for one import
  after the other, the texts that its load opens inside of one more resource. -/
  | expanded {around : List String} {uri : String} {candidates : List String} {text : String}
      {inside : String → List String}
      (h : resolve uri loader.locale loader.schemes = .ok candidates)
      (htext : loader.firstText answers candidates = some text)
      (hinside : ∀ imported, .importing imported ∈ (Resource.salvage text).entries →
        imported ∉ uri :: around → Opens loader answers (uri :: around) imported (inside imported)) :
      Opens loader answers around uri
        (text :: (Resource.salvage text).entries.flatMap (openedFor (uri :: around) inside))

section

variable {loader : Loader} {answers : String → Reading}

/-- There are no other texts. -/
theorem Opens.unique {around : List String} {uri : String} {texts texts' : List String}
    (h : loader.Opens answers around uri texts) (h' : loader.Opens answers around uri texts') :
    texts = texts' := by
  induction h generalizing texts' with
  | malformed hresolve =>
    cases h' with
    | malformed _ => rfl
    | unfetched _ _ => rfl
    | expanded hresolve' _ _ => exact nomatch hresolve.symm.trans hresolve'
  | unfetched hresolve hnone =>
    cases h' with
    | malformed _ => rfl
    | unfetched _ _ => rfl
    | expanded hresolve' htext' _ =>
      rw [Except.ok.inj (hresolve.symm.trans hresolve')] at hnone
      exact nomatch hnone.symm.trans htext'
  | expanded hresolve htext _ ih =>
    cases h' with
    | malformed hresolve' => exact nomatch hresolve.symm.trans hresolve'
    | unfetched hresolve' hnone' =>
      rw [Except.ok.inj (hresolve.symm.trans hresolve')] at htext
      exact nomatch htext.symm.trans hnone'
    | expanded hresolve' htext' hinside' =>
      rw [Except.ok.inj (hresolve.symm.trans hresolve')] at htext
      obtain rfl := Option.some.inj (htext.symm.trans htext')
      -- the texts are the same, and so is what is opened for each import
      refine congrArg (List.cons _) (List.flatMap_congr fun entry hentry => ?_)
      cases entry with
      | importing imported =>
        rw [openedFor_importing, openedFor_importing]
        split
        · rfl
        · next haround => exact ih imported hentry haround (hinside' imported hentry haround)
      | entity _ | macroDef _ | comment _ | junk _ => rfl

/-- A load that fails has opened nothing, and every other load a text. -/
theorem Opens.eq_nil_iff {around : List String} {uri : String} {texts : List String}
    {result : Loaded} (h : loader.Opens answers around uri texts)
    (hresult : loader.Loads answers around uri result) :
    texts = [] ↔ ∃ failure, result = .error failure := by
  cases h with
  | malformed hresolve =>
    rw [hresult.unique (.malformed hresolve)]
    exact iff_of_true rfl ⟨_, rfl⟩
  | unfetched hresolve hnone =>
    rw [hresult.unique (.unfetched hresolve hnone)]
    exact iff_of_true rfl ⟨_, rfl⟩
  | expanded hresolve htext _ =>
    refine iff_of_false (List.cons_ne_nil _ _) ?_
    rintro ⟨failure, rfl⟩
    cases hresult with
    | malformed hresolve' => exact nomatch hresolve.symm.trans hresolve'
    | unfetched hresolve' hnone' =>
      rw [Except.ok.inj (hresolve.symm.trans hresolve')] at htext
      exact nomatch htext.symm.trans hnone'

/-! ## §4. What a load announces. -/

theorem fetch_events (uri : String) : ((loader.fetch uri).run answers).2.events = [] := by
  rw [fetch_log]
  rfl

theorem run_bind_log {α β : Type} (e : Errand α) (f : α → Errand β) :
    ((e >>= f).run answers).2 = (e.run answers).2 ++ ((f (e.run answers).1).run answers).2 := by
  rw [Errand.bind_eq, Errand.run_bind]

theorem events_bind {α β : Type} (e : Errand α) (f : α → Errand β) :
    ((e >>= f).run answers).2.events
      = (e.run answers).2.events ++ ((f (e.run answers).1).run answers).2.events := by
  rw [run_bind_log, Log.events_append]

theorem fetchFirst_events (uris : List String) : ∀ failure : FetchError,
    ((loader.fetchFirst failure uris).run answers).2.events = [] := by
  induction uris with
  | nil => exact fun failure => rfl
  | cons uri uris ih =>
    intro failure
    rw [fetchFirst, events_bind, fetch_events, List.nil_append, run_fetch]
    cases loader.fetched answers uri with
    | ok text => rfl
    | error e => exact ih e

theorem reportAll_events (errors : List SyntaxError) :
    ((Errand.reportAll errors).run answers).2.events = errors.map .syntaxError := by
  rw [reportAll_log]
  unfold Log.events
  rw [List.filterMap_map]
  exact congrFun List.filterMap_eq_map _

/-- What is seen while imports are replaced is what is seen of the load of one
of them after the other. -/
theorem expand_log (load : String → Errand Loaded) (around : List String) (entries : List Entry) :
    ((expand load around entries).run answers).2
      = ((entries.filterMap Entry.imported?).filter (· ∉ around)).flatMap fun uri =>
          ((load uri).run answers).2 := by
  induction entries with
  | nil => rfl
  | cons entry entries ih =>
    cases entry with
    | importing uri =>
      have hsome : (Entry.importing uri).imported? = some uri := rfl
      rw [expand_importing, run_bind_log, run_bind_log, ih, List.filterMap_cons_some hsome,
        List.filter_cons]
      by_cases haround : uri ∈ around
      · rw [if_pos haround, if_neg (by simpa using haround)]
        exact List.append_nil _
      · rw [if_neg haround, if_pos (by simpa using haround), List.flatMap_cons]
        exact congrArg _ (List.append_nil _)
    | entity _ | macroDef _ | comment _ | junk _ =>
      exact (run_bind_log _ _).trans ((List.append_nil _).trans ih)

/-- What is opened for the entries of a text is what is opened for its imports
that are not left out. -/
theorem flatMap_openedFor (around : List String) (inside : String → List String)
    (entries : List Entry) :
    entries.flatMap (openedFor around inside)
      = ((entries.filterMap Entry.imported?).filter (· ∉ around)).flatMap inside := by
  induction entries with
  | nil => rfl
  | cons entry entries ih =>
    rw [List.flatMap_cons, ih]
    cases entry with
    | importing uri =>
      have hsome : (Entry.importing uri).imported? = some uri := rfl
      rw [openedFor_importing, List.filterMap_cons_some hsome, List.filter_cons]
      by_cases haround : uri ∈ around <;> simp [haround]
    | entity _ | macroDef _ | comment _ | junk _ => rfl

theorem expand_events {load : String → Errand Loaded} {around : List String}
    {inside : String → List String} {entries : List Entry}
    (hload : ∀ uri, .importing uri ∈ entries → uri ∉ around →
      ((load uri).run answers).2.events = (inside uri).flatMap diagnostics) :
    ((expand load around entries).run answers).2.events
      = (entries.flatMap (openedFor around inside)).flatMap diagnostics := by
  rw [expand_log, flatMap_openedFor, List.flatMap_assoc]
  unfold Log.events
  rw [List.filterMap_flatMap]
  refine List.flatMap_congr fun uri huri => ?_
  obtain ⟨hmem, haround⟩ := List.mem_filter.1 huri
  obtain ⟨entry, hentry, hname⟩ := List.mem_filterMap.1 hmem
  obtain rfl := Entry.imported?_eq_some_iff.1 hname
  exact hload uri hentry (of_decide_eq_true haround)

/-- A load announces what its texts have to be told of, if its bound is larger
than the number of names that may still be imported. -/
theorem loads_open {names : List String}
    (hnames : ∀ path text, answers path = .ok text →
      ∀ uri, .importing uri ∈ (Resource.salvage text).entries → uri ∈ names)
    (depth : Nat) : ∀ (around : List String) (uri : String),
      (remaining names (uri :: around)).length < depth →
      ∃ texts, loader.Opens answers around uri texts
        ∧ ((loader.loadWithin depth around uri).run answers).2.events
          = texts.flatMap diagnostics := by
  -- by induction on the bound: each resource inside leaves a name fewer
  induction depth with
  | zero => exact fun around uri h => absurd h (Nat.not_lt_zero _)
  | succ depth ih =>
    intro around uri hdepth
    rw [loadWithin]
    cases hresolve : resolve uri loader.locale loader.schemes with
    | error e => exact ⟨[], .malformed hresolve, rfl⟩
    | ok candidates =>
      dsimp only
      rw [events_bind, fetchFirst_events, List.nil_append, run_fetchFirst]
      cases htext : loader.firstText answers candidates with
      | none => exact ⟨[], .unfetched hresolve htext, rfl⟩
      | some text =>
        have hinside : ∀ imported, .importing imported ∈ (Resource.salvage text).entries ∧
            imported ∉ uri :: around → ∃ texts, loader.Opens answers (uri :: around) imported texts
              ∧ ((loader.loadWithin depth (uri :: around) imported).run answers).2.events
                = texts.flatMap diagnostics := by
          rintro imported ⟨hmem, haround⟩
          obtain ⟨path, hpath⟩ := exists_of_firstText htext
          have hlt := remaining_lt (hnames path text hpath imported hmem) haround
          exact ih _ imported (by omega)
        choose! inside hopens hevents using hinside
        refine ⟨_, .expanded hresolve htext fun imported hmem haround =>
          hopens imported ⟨hmem, haround⟩, ?_⟩
        dsimp only
        rw [events_bind, events_bind, reportAll_events, List.flatMap_cons,
            expand_events fun imported hmem haround => hevents imported ⟨hmem, haround⟩]
        exact congrArg (diagnostics text ++ ·) (List.append_nil _)

end

/-- From a finite store, a load announces the syntax errors of the texts that
it opens, and opens none if it fails. -/
theorem load_opens {store : Store} {texts : List String} (hstore : store.Holds texts)
    (path : String → String) (locale : Option String) (schemes : List String) (uri : String) :
    let loader : Loader := ⟨path, store.importDepth, locale, schemes⟩
    ∃ opened, loader.Opens store.read [] uri opened
      ∧ ((loader.load uri).run store.read).2.events = opened.flatMap diagnostics
      ∧ (opened = [] ↔ ∃ failure, loader.loaded store.read uri = .error failure) := by
  intro loader
  obtain ⟨names, hnames, hdepth⟩ := remaining_lt_importDepth hstore
  obtain ⟨opened, hopens, hevents⟩ := loads_open hnames loader.depth [] uri (hdepth uri)
  exact ⟨opened, hopens, hevents, hopens.eq_nil_iff (loads_loaded hstore path locale schemes uri)⟩

end Loader

end Phrasebook
