/-
  Phrasebook.Proofs.Load.Expansion
  ────────────────────────────────
  **IMPORTS ARE REPLACED BY WHAT THEY NAME.**

  `Loads` says what the load of a resource comes to, with the resources
  around it and without any bound on how deep resources import one another:

      malformed  —  the reference names no candidates
      unfetched  —  no candidate has a text
      expanded   —  the entries of the first candidate that has one; in place
                    of each import, the entries that it brings

  A load within a bound runs as `Loads` says, as long as the bound is larger
  than the number of names that may still be imported:

      run_loadWithin, loads_run   —  one load, and by induction all in a row
      Loads.unique                —  nothing else comes of a load
      loadOn_eq                   —  loads that share one stack leave it as
                                     they found it
      load_expands                —  in a finite store, the bound is always
                                     large enough
-/
import Phrasebook.Load.Loader
import Phrasebook.Proofs.Store.Finite

namespace Phrasebook

/-! ## §1. Errands in a row. -/

/-- The result of two errands in a row is that of the second one, after that
of the first one. -/
theorem Errand.run_bind_fst {α β : Type} (answers : String → Reading) (e : Errand α)
    (f : α → Errand β) :
    ((e >>= f).run answers).1 = ((f (e.run answers).1).run answers).1 := by
  rw [bind_eq, run_bind]

theorem Errand.bind_done {α : Type} (e : Errand α) : e.bind .done = e := by
  induction e with
  | done a => rfl
  | read path next ih => exact congrArg (Errand.read path) (funext ih)
  | announce event next ih => exact congrArg (Errand.announce event) ih

theorem Errand.bind_bind {α β γ : Type} (e : Errand α) (f : α → Errand β) (g : β → Errand γ) :
    (e.bind f).bind g = e.bind fun a => (f a).bind g := by
  induction e with
  | done a => rfl
  | read path next ih => exact congrArg (Errand.read path) (funext ih)
  | announce event next ih => exact congrArg (Errand.announce event) ih

instance : LawfulMonad Errand :=
  LawfulMonad.mk' Errand Errand.bind_done (fun _ _ => rfl) Errand.bind_bind

namespace Loader

/-! ## §2. Candidates. -/

section

variable (loader : Loader) (answers : String → Reading)

/-- What comes of fetching a URI. -/
def fetched (uri : String) : Except FetchError String :=
  match answers (loader.path uri) with
  | .ok text => .ok text
  | .error .missing => .error (.notFound uri)
  | .error (.failed reason) => .error (.unreadable (loader.path uri) reason)

/-- The text of the first of several URIs that has one. -/
def firstText (uris : List String) : Option String :=
  uris.findSome? fun uri => (loader.fetched answers uri).toOption

/-- Why a URI cannot be fetched, unless it can. -/
def unfetched? (uri : String) : Option FetchError :=
  match loader.fetched answers uri with
  | .ok _ => none
  | .error e => some e

/-- Why the last of several URIs cannot be fetched; without any it is
`failure`. -/
def lastFailure (failure : FetchError) (uris : List String) : FetchError :=
  (uris.filterMap (loader.unfetched? answers)).getLast?.getD failure

variable {loader answers}

theorem run_fetch (uri : String) :
    ((loader.fetch uri).run answers).1 = loader.fetched answers uri := by
  unfold fetch fetched
  rw [Errand.run]
  cases answers (loader.path uri) with
  | ok text => rfl
  | error e => cases e <;> rfl

theorem unfetched?_of_error {uri : String} {e : FetchError}
    (h : loader.fetched answers uri = .error e) : loader.unfetched? answers uri = some e := by
  unfold unfetched?
  rw [h]

theorem lastFailure_cons {uri : String} {e : FetchError}
    (h : loader.fetched answers uri = .error e) (failure : FetchError) (uris : List String) :
    loader.lastFailure answers failure (uri :: uris) = loader.lastFailure answers e uris := by
  unfold lastFailure
  rw [List.filterMap_cons_some (unfetched?_of_error h), List.getLast?_cons, Option.getD_some]

/-- Candidates are fetched up to the first that has a text. -/
theorem run_fetchFirst (failure : FetchError) (uris : List String) :
    ((loader.fetchFirst failure uris).run answers).1
      = match loader.firstText answers uris with
        | some text => .ok text
        | none => .error (loader.lastFailure answers failure uris) := by
  induction uris generalizing failure with
  | nil => rfl
  | cons uri uris ih =>
    rw [fetchFirst, Errand.run_bind_fst, run_fetch]
    unfold firstText
    cases h : loader.fetched answers uri with
    | ok text =>
      rw [List.findSome?_cons, h]
      rfl
    | error e =>
      rw [List.findSome?_cons, h, lastFailure_cons h]
      exact ih e

theorem firstText_eq_none_iff {uris : List String} :
    loader.firstText answers uris = none
      ↔ ∀ uri ∈ uris, ∃ e, loader.fetched answers uri = .error e := by
  unfold firstText
  rw [List.findSome?_eq_none_iff]
  refine forall₂_congr fun uri _ => ?_
  cases loader.fetched answers uri with
  | ok text => exact iff_of_false nofun nofun
  | error e => exact iff_of_true rfl ⟨e, rfl⟩

end

/-- The text of a candidate has been read. -/
theorem exists_of_firstText {loader : Loader} {answers : String → Reading} {uris : List String}
    {text : String} (h : loader.firstText answers uris = some text) :
    ∃ path, answers path = .ok text := by
  obtain ⟨uri, -, huri⟩ := List.exists_of_findSome?_eq_some h
  refine ⟨loader.path uri, ?_⟩
  unfold fetched at huri
  cases hread : answers (loader.path uri) with
  | ok found =>
    rw [hread] at huri
    exact congrArg Except.ok (Option.some.inj huri)
  | error e =>
    rw [hread] at huri
    cases e <;> exact nomatch huri

/-! ## §3. What a load comes to. -/

/-- What stands for an entry: of an import the entries that it brings, which
are none if the resource is being loaded around it or cannot be loaded. -/
def splice (around : List String) (inside : String → Loaded) : Entry → List Entry
  | .importing uri => if uri ∈ around then [] else (inside uri).toOption.getD []
  | entry => [entry]

theorem splice_importing (around : List String) (inside : String → Loaded) (uri : String) :
    splice around inside (.importing uri)
      = if uri ∈ around then [] else (inside uri).toOption.getD [] :=
  rfl

/-- What the load of a resource comes to, inside of the resources `around`. -/
inductive Loads (loader : Loader) (answers : String → Reading) :
    (around : List String) → (uri : String) → Loaded → Prop where
  | malformed {around : List String} {uri : String} {e : MalformedReference}
      (h : resolve uri loader.locale loader.schemes = .error e) :
      Loads loader answers around uri (.error (.malformed e))
  /-- No candidate has a text; the last one counts, and without any the
  resource itself is not found. -/
  | unfetched {around : List String} {uri : String} {candidates : List String}
      (h : resolve uri loader.locale loader.schemes = .ok candidates)
      (hnone : loader.firstText answers candidates = none) :
      Loads loader answers around uri
        (.error (.unfetched uri (loader.lastFailure answers (.notFound uri) candidates)))
  /-- Each import is replaced by what comes of a load of its own, inside of
  one more resource. -/
  | expanded {around : List String} {uri : String} {candidates : List String} {text : String}
      {inside : String → Loaded}
      (h : resolve uri loader.locale loader.schemes = .ok candidates)
      (htext : loader.firstText answers candidates = some text)
      (hinside : ∀ imported, .importing imported ∈ (Resource.salvage text).entries →
        imported ∉ uri :: around → Loads loader answers (uri :: around) imported (inside imported)) :
      Loads loader answers around uri
        (.ok ((Resource.salvage text).entries.flatMap (splice (uri :: around) inside)))

/-- Only what is loaded for the imports in a list matters to the list. -/
theorem flatMap_splice_congr {around : List String} {inside inside' : String → Loaded}
    {entries : List Entry}
    (h : ∀ uri, .importing uri ∈ entries → uri ∉ around → inside uri = inside' uri) :
    entries.flatMap (splice around inside) = entries.flatMap (splice around inside') := by
  induction entries with
  | nil => rfl
  | cons entry entries ih =>
    rw [List.flatMap_cons, List.flatMap_cons,
        ih fun uri hmem => h uri (List.mem_cons_of_mem _ hmem)]
    congr 1
    cases entry with
    | importing uri =>
      rw [splice_importing, splice_importing]
      split
      · rfl
      · next haround => rw [h uri List.mem_cons_self haround]
    | entity _ | macroDef _ | comment _ | junk _ => rfl

section

variable {loader : Loader} {answers : String → Reading}

/-- Nothing else comes of a load. -/
theorem Loads.unique {around : List String} {uri : String} {result result' : Loaded}
    (h : loader.Loads answers around uri result) (h' : loader.Loads answers around uri result') :
    result = result' := by
  induction h generalizing result' with
  | malformed hresolve =>
    cases h' with
    | malformed hresolve' => rw [Except.error.inj (hresolve.symm.trans hresolve')]
    | unfetched hresolve' _ => exact nomatch hresolve.symm.trans hresolve'
    | expanded hresolve' _ _ => exact nomatch hresolve.symm.trans hresolve'
  | unfetched hresolve hnone =>
    cases h' with
    | malformed hresolve' => exact nomatch hresolve.symm.trans hresolve'
    | unfetched hresolve' _ => rw [Except.ok.inj (hresolve.symm.trans hresolve')]
    | expanded hresolve' htext' _ =>
      rw [Except.ok.inj (hresolve.symm.trans hresolve')] at hnone
      exact nomatch hnone.symm.trans htext'
  | expanded hresolve htext _ ih =>
    cases h' with
    | malformed hresolve' => exact nomatch hresolve.symm.trans hresolve'
    | unfetched hresolve' hnone' =>
      rw [Except.ok.inj (hresolve.symm.trans hresolve')] at htext
      exact nomatch htext.symm.trans hnone'
    | expanded hresolve' htext' hinside' =>
      rw [Except.ok.inj (hresolve.symm.trans hresolve')] at htext
      obtain rfl := Option.some.inj (htext.symm.trans htext')
      -- the texts are the same, and so is what is loaded for each import
      exact congrArg Except.ok (flatMap_splice_congr fun imported hmem haround =>
        ih imported hmem haround (hinside' imported hmem haround))

/-- A load that fails is of a malformed reference, or of one of which no
candidate has a text. -/
theorem Loads.error_iff {around : List String} {uri : String} {result : Loaded}
    (h : loader.Loads answers around uri result) (failure : LoadFailure) :
    result = .error failure
      ↔ (∃ e, resolve uri loader.locale loader.schemes = .error e ∧ failure = .malformed e)
        ∨ ∃ candidates, resolve uri loader.locale loader.schemes = .ok candidates
          ∧ (∀ c ∈ candidates, ∃ e, loader.fetched answers c = .error e)
          ∧ failure = .unfetched uri (loader.lastFailure answers (.notFound uri) candidates) := by
  constructor
  · rintro rfl
    cases h with
    | malformed hresolve => exact .inl ⟨_, hresolve, rfl⟩
    | unfetched hresolve hnone =>
      exact .inr ⟨_, hresolve, firstText_eq_none_iff.1 hnone, rfl⟩
  · rintro (⟨e, hresolve, rfl⟩ | ⟨candidates, hresolve, hfail, rfl⟩)
    · exact h.unique (.malformed hresolve)
    · exact h.unique (.unfetched hresolve (firstText_eq_none_iff.2 hfail))

/-- No import remains. -/
theorem Loads.importing_not_mem {around : List String} {uri : String} {result : Loaded}
    (h : loader.Loads answers around uri result) :
    ∀ entries, result = .ok entries → ∀ imported, .importing imported ∉ entries := by
  induction h with
  | malformed _ => exact fun entries heq => nomatch heq
  | unfetched _ _ => exact fun entries heq => nomatch heq
  | @expanded around uri candidates text inside _ _ _ ih =>
    intro entries heq imported hmem
    obtain rfl := Except.ok.inj heq
    obtain ⟨entry, hentry, hspliced⟩ := List.mem_flatMap.1 hmem
    cases entry with
    | importing other =>
      rw [splice_importing] at hspliced
      split at hspliced
      · exact absurd hspliced List.not_mem_nil
      · next haround =>
        -- what an import brings has none, by induction
        cases hinside : inside other with
        | ok found =>
          rw [hinside] at hspliced
          exact ih other hentry haround found hinside imported hspliced
        | error failure =>
          rw [hinside] at hspliced
          exact absurd hspliced List.not_mem_nil
    | entity _ | macroDef _ | comment _ | junk _ =>
      exact nomatch List.mem_singleton.1 hspliced

end

/-! ## §4. Running a load. -/

section

variable {loader : Loader} {answers : String → Reading}

theorem run_expand (load : String → Errand Loaded) (around : List String) (entries : List Entry) :
    ((expand load around entries).run answers).1
      = entries.flatMap (splice around fun uri => ((load uri).run answers).1) := by
  induction entries with
  | nil => rfl
  | cons entry entries ih =>
    rw [List.flatMap_cons, ← ih]
    cases entry with
    | importing uri =>
      rw [expand, splice_importing]
      split
      · rw [Errand.run_bind_fst, Errand.run_bind_fst]
        rfl
      · rw [Errand.run_bind_fst, Errand.run_bind_fst]
        cases ((load uri).run answers).1 <;> rfl
    | entity _ | macroDef _ | comment _ | junk _ =>
      rw [expand, Errand.run_bind_fst]
      · rfl
      all_goals exact nofun

/-- What one load does, in terms of those inside of it. -/
theorem run_loadWithin (depth : Nat) (around : List String) (uri : String) :
    ((loader.loadWithin (depth + 1) around uri).run answers).1
      = match resolve uri loader.locale loader.schemes with
        | .error e => .error (.malformed e)
        | .ok candidates =>
          match loader.firstText answers candidates with
          | none => .error (.unfetched uri (loader.lastFailure answers (.notFound uri) candidates))
          | some text => .ok ((Resource.salvage text).entries.flatMap (splice (uri :: around)
              fun imported =>
                ((loader.loadWithin depth (uri :: around) imported).run answers).1)) := by
  rw [loadWithin]
  cases resolve uri loader.locale loader.schemes with
  | error e => rfl
  | ok candidates =>
    dsimp only
    rw [Errand.run_bind_fst, run_fetchFirst]
    cases loader.firstText answers candidates with
    | none => rfl
    | some text =>
      dsimp only
      rw [Errand.run_bind_fst, Errand.run_bind_fst, run_expand]
      rfl

/-! ## §5. The bound is never reached. -/

/-- The names that may still be imported inside of some resources. -/
def remaining (names around : List String) : List String :=
  names.filter fun name => name ∉ around

/-- Every resource on the way takes one name away. -/
theorem remaining_lt {names around : List String} {uri : String} (hmem : uri ∈ names)
    (haround : uri ∉ around) :
    (remaining names (uri :: around)).length < (remaining names around).length := by
  have hsub : remaining names (uri :: around)
      = (remaining names around).filter fun name => name ≠ uri := by
    unfold remaining
    rw [List.filter_filter]
    refine List.filter_congr fun name _ => ?_
    simp only [List.mem_cons, not_or, ne_eq, Bool.decide_and]
  have hthere : uri ∈ remaining names around := List.mem_filter.2 ⟨hmem, by simpa using haround⟩
  rw [hsub]
  exact List.length_filter_lt_length_iff_exists.2 ⟨uri, hthere, by simp⟩

/-- A load runs as its reference says if its bound is larger than the number
of names that may still be imported. -/
theorem loads_run {names : List String}
    (hnames : ∀ path text, answers path = .ok text →
      ∀ uri, .importing uri ∈ (Resource.salvage text).entries → uri ∈ names)
    (depth : Nat) : ∀ (around : List String) (uri : String),
      (remaining names (uri :: around)).length < depth →
      loader.Loads answers around uri ((loader.loadWithin depth around uri).run answers).1 := by
  -- by induction on the bound: each resource inside leaves a name fewer
  induction depth with
  | zero => exact fun around uri h => absurd h (Nat.not_lt_zero _)
  | succ depth ih =>
    intro around uri hdepth
    rw [run_loadWithin]
    cases hresolve : resolve uri loader.locale loader.schemes with
    | error e => exact .malformed hresolve
    | ok candidates =>
      dsimp only
      cases htext : loader.firstText answers candidates with
      | none => exact .unfetched hresolve htext
      | some text =>
        refine .expanded hresolve htext fun imported hmem haround => ih _ imported ?_
        obtain ⟨path, hpath⟩ := exists_of_firstText htext
        have hname := hnames path text hpath imported hmem
        have hlt := remaining_lt hname haround
        omega

end

/-! ## §6. One stack for all loads. -/

/-- Replace imports by what they name, with one stack of the resources that
are being loaded, which every load hands on. -/
def expandOn (load : String → List String → Errand (Loaded × List String)) :
    List Entry → List String → Errand (List Entry × List String)
  | [], stack => pure ([], stack)
  | .importing uri :: entries, stack => do
    let (imported, stack) ← if uri ∈ stack then pure (.ok [], stack) else load uri stack
    let (later, stack) ← expandOn load entries stack
    match imported with
    | .ok found => pure (found ++ later, stack)
    | .error _ => pure (later, stack)
  | entry :: entries, stack => do
    let (later, stack) ← expandOn load entries stack
    pure (entry :: later, stack)

/-- Load a resource with one stack for all loads: a resource is put on it when
its text is there, and taken off it when its entries have been gone through. -/
def loadOn (loader : Loader) : (depth : Nat) → (uri : String) → (stack : List String) →
    Errand (Loaded × List String)
  | 0, uri, stack => pure (.error (.aborted uri), stack)
  | depth + 1, uri, stack =>
    match resolve uri loader.locale loader.schemes with
    | .error e => pure (.error (.malformed e), stack)
    | .ok candidates => do
      match ← loader.fetchFirst (.notFound uri) candidates with
      | .error e => pure (.error (.unfetched uri e), stack)
      | .ok text =>
        let salvage := Resource.salvage text
        Errand.reportAll salvage.errors
        let (entries, stack) ← expandOn (loader.loadOn depth) salvage.entries (uri :: stack)
        pure (.ok entries, stack.tail)

theorem expandOn_eq {load : String → List String → Errand (Loaded × List String)}
    {around : List String} {loadInside : String → Errand Loaded}
    (hload : ∀ uri, load uri around = (do
      let result ← loadInside uri
      pure (result, around))) (entries : List Entry) :
    expandOn load entries around = (do
      let later ← expand loadInside around entries
      pure (later, around)) := by
  induction entries with
  | nil => rfl
  | cons entry entries ih =>
    cases entry with
    | importing uri =>
      rw [expandOn, expand]
      split
      · simp only [pure_bind, ih, bind_assoc]
      · simp only [hload, pure_bind, ih, bind_assoc]
        refine bind_congr fun imported => bind_congr fun later => ?_
        cases imported <;> rfl
    | entity _ | macroDef _ | comment _ | junk _ =>
      rw [expandOn, expand]
      · simp only [ih, pure_bind, bind_assoc]
      all_goals exact nofun

/-- Every load leaves the stack as it has found it, whether it succeeds or
fails. -/
theorem loadOn_eq (loader : Loader) (depth : Nat) : ∀ (uri : String) (stack : List String),
    loader.loadOn depth uri stack = (do
      let result ← loader.loadWithin depth stack uri
      pure (result, stack)) := by
  induction depth with
  | zero => exact fun uri stack => rfl
  | succ depth ih =>
    intro uri stack
    rw [loadOn, loadWithin]
    cases resolve uri loader.locale loader.schemes with
    | error e => rfl
    | ok candidates =>
      dsimp only
      rw [bind_assoc]
      refine bind_congr fun fetched => ?_
      cases fetched with
      | error e => rfl
      | ok text =>
        -- the resource is on top of the stack again when its entries are done
        simp only [expandOn_eq fun uri' => ih uri' (uri :: stack), pure_bind, bind_assoc,
          List.tail_cons]

/-! ## §7. Loads from a finite store. -/

/-- What a loader brings when its reads are answered like this. -/
def loaded (loader : Loader) (answers : String → Reading) (uri : String) : Loaded :=
  ((loader.load uri).run answers).1

/-- The loads of a loader expand imports, and do nothing else. -/
structure Expands (loader : Loader) (answers : String → Reading) : Prop where
  /-- What is loaded is what `Loads` says, which has no bound, and nothing
  else. -/
  loads_iff : ∀ uri result,
    loader.Loads answers [] uri result ↔ loader.loaded answers uri = result
  /-- A load fails if its reference is malformed, or if no candidate can be
  fetched; then the failure of the last one counts, and that the resource
  itself is not found if there are none. -/
  fails_iff : ∀ uri failure, loader.loaded answers uri = .error failure
    ↔ (∃ e, resolve uri loader.locale loader.schemes = .error e ∧ failure = .malformed e)
      ∨ ∃ candidates, resolve uri loader.locale loader.schemes = .ok candidates
        ∧ (∀ c ∈ candidates, ∃ e, loader.fetched answers c = .error e)
        ∧ failure = .unfetched uri (loader.lastFailure answers (.notFound uri) candidates)
  /-- No import remains. -/
  no_import : ∀ uri entries, loader.loaded answers uri = .ok entries →
    ∀ imported, .importing imported ∉ entries
  /-- Loads that share one stack leave it as they have found it, at every
  depth, and whether they succeed or fail. -/
  stack_restored : ∀ depth uri stack,
    loader.loadOn depth uri stack = (do
      let result ← loader.loadWithin depth stack uri
      pure (result, stack))

/-- In a finite store, fewer names may be imported in a row than the bound
allows. -/
theorem remaining_lt_importDepth {store : Store} {texts : List String}
    (hstore : store.Holds texts) :
    ∃ names : List String, (∀ path text, store.read path = .ok text →
        ∀ uri, .importing uri ∈ (Resource.salvage text).entries → uri ∈ names)
      ∧ ∀ uri, (remaining names [uri]).length < store.importDepth := by
  obtain ⟨names, hlength, hnames⟩ := hstore.names
  refine ⟨names, hnames, fun uri => ?_⟩
  have hremaining : (remaining names [uri]).length ≤ names.length := List.length_filter_le _ _
  show _ < store.size + 2
  omega

/-- In a finite store the bound of a loader is never reached. -/
theorem loads_loaded {store : Store} {texts : List String} (hstore : store.Holds texts)
    (path : String → String) (locale : Option String) (schemes : List String) (uri : String) :
    let loader : Loader := ⟨path, store.importDepth, locale, schemes⟩
    loader.Loads store.read [] uri (loader.loaded store.read uri) := by
  obtain ⟨names, hnames, hdepth⟩ := remaining_lt_importDepth hstore
  exact loads_run hnames _ _ _ (hdepth uri)

theorem expands_of_holds {store : Store} {texts : List String} (hstore : store.Holds texts)
    (path : String → String) (locale : Option String) (schemes : List String) :
    Expands ⟨path, store.importDepth, locale, schemes⟩ store.read := by
  have hloads := loads_loaded hstore path locale schemes
  refine ⟨fun uri result => ⟨fun h => (hloads uri).unique h, ?_⟩, fun uri => (hloads uri).error_iff,
    fun uri => (hloads uri).importing_not_mem, loadOn_eq _⟩
  rintro rfl
  exact hloads uri

/-- From texts in memory and from files, imports are replaced by what they
name, whatever imports what. -/
theorem load_expands (path : String → String) (locale : Option String) (schemes : List String) :
    (∀ memory : Memory, Expands ⟨path, memory.store.importDepth, locale, schemes⟩ memory.read)
      ∧ ∀ tree : FileTree, Expands ⟨path, tree.store.importDepth, locale, schemes⟩ tree.read :=
  ⟨fun memory => expands_of_holds memory.holds path locale schemes,
    fun tree => expands_of_holds tree.holds path locale schemes⟩

end Loader

end Phrasebook
