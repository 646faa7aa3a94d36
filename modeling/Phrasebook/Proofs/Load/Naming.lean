/-
  Phrasebook.Proofs.Load.Naming
  ────────────────────────────────
  **CYCLES OF IMPORTS ARE CUT BY NAME.**

  A resource may go by several names: the URI of its text, and the references
  that the schemes lead to it.  While it is expanded, an import of the name
  that it goes by is left out; under any other name it is fetched and expanded
  again, inside of itself:

      Visit               —  a text that is expanded, and the names and
                             candidates of the resources around it
      Visits              —  all of them, in the order of the load
      Visits.names_nodup  —  on no way in does a name come twice
      Visits.nested       —  whatever is not left out is expanded once more
      Visits.textReads_eq —  and fetched for that
      Visits.candidates_nodup_iff
                          —  a candidate comes twice just where an import
                             leads back under another name
      cycles_are_cut_by_name
                          —  for all texts in memory, and all files
-/
import Phrasebook.Proofs.Load.Opened

namespace Phrasebook

/-- The text is that of a URI, and not a reference. -/
def IsPlain (name : String) : Prop :=
  after? Reference.scheme name.toList = none

theorem resolve_plain {name : String} (h : IsPlain name) (locale : Option String)
    (schemes : List String) : resolve name locale schemes = .ok [name] := by
  unfold resolve
  rw [h]

namespace Loader

/-! ## §1. Names and candidates. -/

/-- The first of several URIs that has a text, and the text. -/
def firstFound (loader : Loader) (answers : String → Reading) (uris : List String) :
    Option (String × String) :=
  uris.findSome? fun uri => (loader.fetched answers uri).toOption.map fun text => (uri, text)

/-- The candidate of a resource that is fetched, and its text. -/
def found? (loader : Loader) (answers : String → Reading) (name : String) :
    Option (String × String) :=
  match resolve name loader.locale loader.schemes with
  | .error _ => none
  | .ok candidates => loader.firstFound answers candidates

section

variable {loader : Loader} {answers : String → Reading} {name : String}

/-- The text is the one that a load goes on with. -/
theorem map_snd_firstFound (uris : List String) :
    (loader.firstFound answers uris).map Prod.snd = loader.firstText answers uris := by
  unfold firstFound firstText
  rw [List.map_findSome?]
  refine congrArg (fun f => uris.findSome? f) (funext fun uri => ?_)
  show Option.map Prod.snd (Option.map _ (loader.fetched answers uri).toOption) = _
  rw [Option.map_map]
  exact congrFun Option.map_id _

theorem found?_malformed {e : MalformedReference}
    (h : resolve name loader.locale loader.schemes = .error e) :
    loader.found? answers name = none := by
  unfold found?
  rw [h]

theorem found?_of_resolve {candidates : List String}
    (h : resolve name loader.locale loader.schemes = .ok candidates) :
    loader.found? answers name = loader.firstFound answers candidates := by
  unfold found?
  rw [h]

theorem found?_unfetched {candidates : List String}
    (h : resolve name loader.locale loader.schemes = .ok candidates)
    (hnone : loader.firstText answers candidates = none) : loader.found? answers name = none := by
  rw [← map_snd_firstFound, Option.map_eq_none_iff] at hnone
  rw [found?_of_resolve h, hnone]

theorem found?_expanded {candidates : List String} {text : String}
    (h : resolve name loader.locale loader.schemes = .ok candidates)
    (htext : loader.firstText answers candidates = some text) :
    ∃ candidate, loader.found? answers name = some (candidate, text) := by
  rw [← map_snd_firstFound] at htext
  obtain ⟨⟨candidate, text'⟩, hfound, rfl⟩ := Option.map_eq_some_iff.1 htext
  exact ⟨candidate, (found?_of_resolve h).trans hfound⟩

theorem exists_of_found? {candidate text : String}
    (h : loader.found? answers name = some (candidate, text)) :
    ∃ path, answers path = .ok text := by
  cases hresolve : resolve name loader.locale loader.schemes with
  | error e => exact nomatch (found?_malformed hresolve).symm.trans h
  | ok candidates =>
    rw [found?_of_resolve hresolve] at h
    have htext : loader.firstText answers candidates = some text := by
      rw [← map_snd_firstFound, h]
      rfl
    exact exists_of_firstText htext

/-- A URI is its own candidate. -/
theorem candidate_of_plain (hplain : IsPlain name) {candidate text : String}
    (h : loader.found? answers name = some (candidate, text)) : candidate = name := by
  rw [found?_of_resolve (resolve_plain hplain _ _)] at h
  obtain ⟨uri, huri, hfetched⟩ := List.exists_of_findSome?_eq_some h
  obtain rfl := List.mem_singleton.1 huri
  obtain ⟨_, -, heq⟩ := Option.map_eq_some_iff.1 hfetched
  exact (Prod.mk.inj heq).1.symm

end

/-! ## §2. Texts that are expanded. -/

/-- A text that is expanded. -/
structure Visit where
  /-- The name that its resource goes by. -/
  name : String
  /-- The candidate that was fetched. -/
  candidate : String
  text : String
  /-- The names and the candidates of the resources around it, the innermost
  one first. -/
  around : List (String × String)

namespace Visit

/-- The resources that are being expanded, with this one. -/
def chain (v : Visit) : List (String × String) :=
  (v.name, v.candidate) :: v.around

/-- The names of the resources that are being expanded. -/
def names (v : Visit) : List String :=
  v.chain.map Prod.fst

/-- The candidates that their texts come from. -/
def candidates (v : Visit) : List String :=
  v.chain.map Prod.snd

/-- The entries of the text itself. -/
def entries (v : Visit) : List Entry :=
  (Resource.salvage v.text).entries.filter fun e => e.imported?.isNone

/-- An import in the text leads, under a name of its own, to a resource that
is being expanded. -/
def LeadsBack (loader : Loader) (answers : String → Reading) (v : Visit) : Prop :=
  ∃ name ∈ Resource.importNames v.text, name ∉ v.names
    ∧ ∃ candidate text, loader.found? answers name = some (candidate, text)
      ∧ candidate ∈ v.candidates

end Visit

/-- The texts that are expanded when a resource is loaded inside of those of
the chain. -/
inductive Visits (loader : Loader) (answers : String → Reading) :
    (chain : List (String × String)) → (name : String) → List Visit → Prop where
  | missing {chain : List (String × String)} {name : String}
      (h : loader.found? answers name = none) : Visits loader answers chain name []
  /-- The text itself, and for one import after the other those of its load,
  unless it goes by the name of a resource that is being expanded. -/
  | found {chain : List (String × String)} {name candidate text : String}
      {inside : String → List Visit} (h : loader.found? answers name = some (candidate, text))
      (hinside : ∀ imported ∈ Resource.importNames text, imported ∉ name :: chain.map Prod.fst →
        Visits loader answers ((name, candidate) :: chain) imported (inside imported)) :
      Visits loader answers chain name (⟨name, candidate, text, chain⟩
        :: ((Resource.importNames text).filter (· ∉ name :: chain.map Prod.fst)).flatMap inside)

section

variable {loader : Loader} {answers : String → Reading} {chain : List (String × String)}
  {name : String} {visits visits' : List Visit}

/-- Whatever is expanded inside of a resource is expanded for one of its
imports that is not left out. -/
theorem mem_inside_iff {names around : List String} {inside : String → List Visit} {v : Visit} :
    v ∈ (names.filter (· ∉ around)).flatMap inside
      ↔ ∃ imported ∈ names, imported ∉ around ∧ v ∈ inside imported := by
  simp only [List.mem_flatMap, List.mem_filter, decide_eq_true_eq, and_assoc]

theorem Visits.unique (h : loader.Visits answers chain name visits)
    (h' : loader.Visits answers chain name visits') : visits = visits' := by
  induction h generalizing visits' with
  | missing hnone =>
    cases h' with
    | missing _ => rfl
    | found hfound _ => exact nomatch hnone.symm.trans hfound
  | found hfound _ ih =>
    cases h' with
    | missing hnone => exact nomatch hfound.symm.trans hnone
    | found hfound' hinside' =>
      obtain ⟨rfl, rfl⟩ := Prod.mk.inj (Option.some.inj (hfound.symm.trans hfound'))
      refine congrArg (List.cons _) (List.flatMap_congr fun imported himported => ?_)
      obtain ⟨hmem, haround⟩ := List.mem_filter.1 himported
      have haround := of_decide_eq_true haround
      exact ih imported hmem haround (hinside' imported hmem haround)

/-- The visit of a resource that has a text comes first. -/
theorem Visits.self (h : loader.Visits answers chain name visits) {candidate text : String}
    (hfound : loader.found? answers name = some (candidate, text)) :
    ⟨name, candidate, text, chain⟩ ∈ visits := by
  cases h with
  | missing hnone => exact nomatch hfound.symm.trans hnone
  | found hfound' _ =>
    obtain ⟨rfl, rfl⟩ := Prod.mk.inj (Option.some.inj (hfound.symm.trans hfound'))
    exact List.mem_cons_self

/-- On no way in does a name come twice. -/
theorem Visits.names_nodup (h : loader.Visits answers chain name visits)
    (hchain : (name :: chain.map Prod.fst).Nodup) : ∀ v ∈ visits, v.names.Nodup := by
  -- by induction on the visits: an import that is not left out has a new name
  induction h with
  | missing _ => exact fun v hv => absurd hv List.not_mem_nil
  | found _ _ ih =>
    intro v hv
    rcases List.mem_cons.1 hv with rfl | hv
    · exact hchain
    · obtain ⟨imported, hmem, haround, hvisit⟩ := mem_inside_iff.1 hv
      exact ih imported hmem haround (List.nodup_cons.2 ⟨haround, hchain⟩) v hvisit

/-- The candidates of a chain are those of its names. -/
theorem Visits.chain_found (h : loader.Visits answers chain name visits)
    (hchain : ∀ p ∈ chain, ∃ text, loader.found? answers p.1 = some (p.2, text)) :
    ∀ v ∈ visits, ∀ p ∈ v.chain, ∃ text, loader.found? answers p.1 = some (p.2, text) := by
  induction h with
  | missing _ => exact fun v hv => absurd hv List.not_mem_nil
  | @found chain name candidate text inside hfound _ ih =>
    have hlonger : ∀ p ∈ (name, candidate) :: chain,
        ∃ text, loader.found? answers p.1 = some (p.2, text) :=
      List.forall_mem_cons.2 ⟨⟨text, hfound⟩, hchain⟩
    intro v hv
    rcases List.mem_cons.1 hv with rfl | hv
    · exact hlonger
    · obtain ⟨imported, hmem, haround, hvisit⟩ := mem_inside_iff.1 hv
      exact ih imported hmem haround hlonger v hvisit

/-- An import under a name that is not being expanded is expanded, whichever
text it leads to. -/
theorem Visits.nested (h : loader.Visits answers chain name visits) {v : Visit} (hv : v ∈ visits)
    {imported candidate text : String} (hmem : imported ∈ Resource.importNames v.text)
    (hnames : imported ∉ v.names) (hfound : loader.found? answers imported = some (candidate, text)) :
    ⟨imported, candidate, text, v.chain⟩ ∈ visits := by
  induction h with
  | missing _ => exact absurd hv List.not_mem_nil
  | found _ hinside ih =>
    refine List.mem_cons_of_mem _ ?_
    rcases List.mem_cons.1 hv with rfl | hv
    · have hself := (hinside imported hmem hnames).self hfound
      exact mem_inside_iff.2 ⟨imported, hmem, hnames, hself⟩
    · obtain ⟨other, hother, haround, hvisit⟩ := mem_inside_iff.1 hv
      exact mem_inside_iff.2 ⟨other, hother, haround, ih other hother haround hvisit⟩

/-- On no way in does a candidate come twice, if no import leads back. -/
theorem Visits.candidates_nodup (h : loader.Visits answers chain name visits)
    (hchain : ∀ candidate text, loader.found? answers name = some (candidate, text) →
      (candidate :: chain.map Prod.snd).Nodup)
    (hback : ∀ v ∈ visits, ¬ v.LeadsBack loader answers) : ∀ v ∈ visits, v.candidates.Nodup := by
  induction h with
  | missing _ => exact fun v hv => absurd hv List.not_mem_nil
  | @found chain name candidate text inside hfound _ ih =>
    have hlonger := hchain _ _ hfound
    intro v hv
    rcases List.mem_cons.1 hv with rfl | hv
    · exact hlonger
    · obtain ⟨imported, hmem, haround, hvisit⟩ := mem_inside_iff.1 hv
      refine ih imported hmem haround (fun c t hc => List.nodup_cons.2 ⟨fun hin => ?_, hlonger⟩)
        (fun w hw => hback w (List.mem_cons_of_mem _ ?_)) v hvisit
      · exact hback _ List.mem_cons_self ⟨imported, hmem, haround, c, t, hc, hin⟩
      · exact mem_inside_iff.2 ⟨imported, hmem, haround, hw⟩

/-- A candidate comes twice on a way in just where an import leads back. -/
theorem Visits.candidates_nodup_iff (h : loader.Visits answers [] name visits) :
    (∀ v ∈ visits, v.candidates.Nodup) ↔ ∀ v ∈ visits, ¬ v.LeadsBack loader answers := by
  constructor
  · rintro hnodup v hv ⟨imported, hmem, hnames, candidate, text, hfound, hin⟩
    -- what is led back to is expanded inside of itself
    have hagain := hnodup _ (h.nested hv hmem hnames hfound)
    exact (List.nodup_cons.1 hagain).1 hin
  · exact h.candidates_nodup fun _ _ _ => List.nodup_singleton _

/-- Where all resources go by the URIs of their texts, no candidate comes
twice. -/
theorem Visits.candidates_nodup_of_plain (h : loader.Visits answers [] name visits)
    (hplain : ∀ v ∈ visits, ∀ n ∈ v.names, IsPlain n) : ∀ v ∈ visits, v.candidates.Nodup := by
  intro v hv
  have hsame : v.candidates = v.names := by
    refine List.map_congr_left fun p hp => ?_
    obtain ⟨text, hfound⟩ := h.chain_found (fun p hp => absurd hp List.not_mem_nil) v hv p hp
    exact candidate_of_plain (hplain v hv p.1 (List.mem_map_of_mem hp)) hfound
  rw [hsame]
  exact h.names_nodup (List.nodup_singleton _) v hv

/-! ## §3. What the texts come to. -/

/-- The texts that a load opens are those that are expanded. -/
theorem Opens.exists_visits {around : List String} {texts : List String}
    (h : loader.Opens answers around name texts) (hchain : chain.map Prod.fst = around) :
    ∃ visits, loader.Visits answers chain name visits ∧ visits.map Visit.text = texts := by
  induction h generalizing chain with
  | malformed hresolve => exact ⟨[], .missing (found?_malformed hresolve), rfl⟩
  | unfetched hresolve hnone => exact ⟨[], .missing (found?_unfetched hresolve hnone), rfl⟩
  | @expanded around uri candidates text inside hresolve htext _ ih =>
    obtain ⟨candidate, hfound⟩ := found?_expanded hresolve htext
    subst hchain
    have hinside : ∀ imported, imported ∈ Resource.importNames text ∧
        imported ∉ uri :: chain.map Prod.fst → ∃ visits,
          loader.Visits answers ((uri, candidate) :: chain) imported visits
            ∧ visits.map Visit.text = inside imported := fun imported h =>
      ih imported (Resource.mem_importNames.1 h.1) h.2 rfl
    choose! insideVisits hvisits htexts using hinside
    refine ⟨_, .found hfound fun imported hmem haround => hvisits imported ⟨hmem, haround⟩, ?_⟩
    rw [List.map_cons, List.map_flatMap, flatMap_openedFor]
    refine congrArg (List.cons text) (List.flatMap_congr fun imported himported => ?_)
    obtain ⟨hmem, haround⟩ := List.mem_filter.1 himported
    exact htexts imported ⟨hmem, of_decide_eq_true haround⟩

/-- Entries in the place of imports are, up to their order, behind those of
the text itself. -/
theorem flatMap_splice_perm {around : List String} {inside : String → Loaded}
    {later : String → List Entry} {entries : List Entry}
    (h : ∀ uri, .importing uri ∈ entries → uri ∉ around →
      ((inside uri).toOption.getD []).Perm (later uri)) :
    (entries.flatMap (splice around inside)).Perm
      (entries.filter (fun e => e.imported?.isNone)
        ++ ((entries.filterMap Entry.imported?).filter (· ∉ around)).flatMap later) := by
  induction entries with
  | nil => exact .refl _
  | cons entry entries ih =>
    have hlater := ih fun uri hmem => h uri (List.mem_cons_of_mem _ hmem)
    rw [List.flatMap_cons]
    cases entry with
    | importing uri =>
      have hsome : (Entry.importing uri).imported? = some uri := rfl
      rw [splice_importing, List.filter_cons_of_neg (by rw [hsome]; exact Bool.false_ne_true),
        List.filterMap_cons_some hsome, List.filter_cons]
      by_cases haround : uri ∈ around
      · simpa [haround] using hlater
      · -- what the import brings goes behind the other entries of the text
        have hfirst := (h uri List.mem_cons_self haround).append hlater
        rw [if_neg haround, if_pos (by simpa using haround), List.flatMap_cons]
        refine hfirst.trans ?_
        rw [← List.append_assoc, ← List.append_assoc]
        exact List.perm_append_comm.append_right _
    | entity _ | macroDef _ | comment _ | junk _ => exact hlater.cons _

/-- The entries that are loaded are those of the texts that are expanded. -/
theorem Loads.perm_entries {around : List String} {result : Loaded}
    (h : loader.Loads answers around name result) (hchain : chain.map Prod.fst = around)
    (hvisits : loader.Visits answers chain name visits) :
    (result.toOption.getD []).Perm (visits.flatMap Visit.entries) := by
  induction h generalizing chain visits with
  | malformed hresolve =>
    obtain rfl := hvisits.unique (.missing (found?_malformed hresolve))
    exact .refl _
  | unfetched hresolve hnone =>
    obtain rfl := hvisits.unique (.missing (found?_unfetched hresolve hnone))
    exact .refl _
  | expanded hresolve htext _ ih =>
    obtain ⟨candidate, hfound⟩ := found?_expanded hresolve htext
    subst hchain
    cases hvisits with
    | missing hnone => exact nomatch hfound.symm.trans hnone
    | @found _ _ _ _ inside hfound' hinside =>
      obtain ⟨rfl, rfl⟩ := Prod.mk.inj (Option.some.inj (hfound.symm.trans hfound'))
      rw [List.flatMap_cons, List.flatMap_assoc]
      refine flatMap_splice_perm fun uri hmem haround => ?_
      exact ih uri hmem haround rfl (hinside uri (Resource.mem_importNames.2 hmem) haround)

/-! ## §4. What is fetched for the texts. -/

/-- The paths that are read, and have a text. -/
def textReads (answers : String → Reading) (log : Log) : List String :=
  log.reads.filter fun path => (answers path).isOk

theorem textReads_append (log later : Log) :
    textReads answers (log ++ later) = textReads answers log ++ textReads answers later := by
  unfold textReads
  rw [Log.reads_append, List.filter_append]

theorem textReads_fetch (uri : String) :
    textReads answers ((loader.fetch uri).run answers).2
      = if (loader.fetched answers uri).isOk then [loader.path uri] else [] := by
  have hok : (loader.fetched answers uri).isOk = (answers (loader.path uri)).isOk := by
    unfold fetched
    cases answers (loader.path uri) with
    | ok text => rfl
    | error e => cases e <;> rfl
  rw [fetch_log, hok]
  exact List.filter_cons

/-- Of several candidates, the first that has a text is the only one. -/
theorem textReads_fetchFirst (uris : List String) : ∀ failure : FetchError,
    textReads answers ((loader.fetchFirst failure uris).run answers).2
      = ((loader.firstFound answers uris).map fun found => loader.path found.1).toList := by
  induction uris with
  | nil => exact fun failure => rfl
  | cons uri uris ih =>
    intro failure
    rw [fetchFirst, run_bind_log, textReads_append, textReads_fetch, run_fetch]
    unfold firstFound
    rw [List.findSome?_cons]
    cases loader.fetched answers uri with
    | ok text => rfl
    | error e => exact ih e

theorem textReads_reportAll (errors : List SyntaxError) :
    textReads answers ((Errand.reportAll errors).run answers).2 = [] := by
  rw [reportAll_log]
  induction errors with
  | nil => rfl
  | cons e errors ih => exact ih

theorem textReads_expand (load : String → Errand Loaded) (around : List String) (text : String) :
    textReads answers ((expand load around (Resource.salvage text).entries).run answers).2
      = ((Resource.importNames text).filter (· ∉ around)).flatMap fun uri =>
          textReads answers ((load uri).run answers).2 := by
  rw [expand_log]
  unfold textReads Log.reads
  rw [List.filterMap_flatMap, List.filter_flatMap]
  rfl

/-- What one load fetches, in terms of those inside of it. -/
theorem textReads_loadWithin (depth : Nat) (around : List String) (name : String) :
    textReads answers ((loader.loadWithin (depth + 1) around name).run answers).2
      = match loader.found? answers name with
        | none => []
        | some (candidate, text) => loader.path candidate
            :: ((Resource.importNames text).filter (· ∉ name :: around)).flatMap fun imported =>
                textReads answers
                  ((loader.loadWithin depth (name :: around) imported).run answers).2 := by
  rw [loadWithin]
  cases hresolve : resolve name loader.locale loader.schemes with
  | error e =>
    rw [found?_malformed hresolve]
    rfl
  | ok candidates =>
    dsimp only
    rw [found?_of_resolve hresolve, run_bind_log, textReads_append, textReads_fetchFirst,
      run_fetchFirst, ← map_snd_firstFound]
    cases loader.firstFound answers candidates with
    | none => rfl
    | some found =>
      dsimp only [Option.map_some]
      rw [run_bind_log, run_bind_log, textReads_append, textReads_append, textReads_reportAll,
        textReads_expand]
      exact congrArg (_ :: ·) (List.append_nil _)

/-- Nothing but the texts that are expanded is fetched, if the bound is larger
than the number of names that may still be imported. -/
theorem Visits.textReads_eq {names : List String}
    (hnames : ∀ path text, answers path = .ok text →
      ∀ uri, .importing uri ∈ (Resource.salvage text).entries → uri ∈ names)
    (h : loader.Visits answers chain name visits) : ∀ depth,
      (remaining names (name :: chain.map Prod.fst)).length < depth →
      textReads answers ((loader.loadWithin depth (chain.map Prod.fst) name).run answers).2
        = visits.map fun v => loader.path v.candidate := by
  -- by induction on the visits, for all bounds that are large enough
  induction h with
  | missing hnone =>
    rintro (_ | depth) hdepth
    · exact absurd hdepth (Nat.not_lt_zero _)
    · rw [textReads_loadWithin, hnone]
      rfl
  | @found chain name candidate text inside hfound _ ih =>
    rintro (_ | depth) hdepth
    · exact absurd hdepth (Nat.not_lt_zero _)
    rw [textReads_loadWithin, hfound, List.map_cons, List.map_flatMap]
    refine congrArg (loader.path candidate :: ·) (List.flatMap_congr fun imported himported => ?_)
    obtain ⟨hmem, haround⟩ := List.mem_filter.1 himported
    have haround := of_decide_eq_true haround
    -- the bound is one less inside, and one name fewer remains
    obtain ⟨path, hpath⟩ := exists_of_found? hfound
    have hlt := remaining_lt (hnames path text hpath imported (Resource.mem_importNames.1 hmem)) haround
    exact ih imported hmem haround depth (Nat.lt_of_lt_of_le hlt (Nat.lt_succ_iff.1 hdepth))

end

/-! ## §5. Cycles of imports. -/

/-- These are the texts that the load of a resource expands, and cycles are cut
in them by name, whatever the names lead to. -/
structure CutByName (loader : Loader) (answers : String → Reading) (uri : String)
    (visits : List Visit) : Prop where
  visits_iff : ∀ visits', loader.Visits answers [] uri visits' ↔ visits' = visits
  /-- For each of them one candidate is fetched, its entries are brought, and
  its syntax errors are announced; and that is all. -/
  reads : textReads answers ((loader.load uri).run answers).2
    = visits.map fun v => loader.path v.candidate
  entries : ((loader.loaded answers uri).toOption.getD []).Perm (visits.flatMap Visit.entries)
  events : ((loader.load uri).run answers).2.events = visits.flatMap fun v => diagnostics v.text
  /-- However long its reads wait, the load comes to the same. -/
  courses : ∀ (pace : Pace) (wakings : List Nat), (∀ path, pace.breaksOff path = false) →
    ((loader.load uri).course answers pace wakings).result = some (loader.loaded answers uri)
      ∧ ((loader.load uri).course answers pace wakings).log = ((loader.load uri).run answers).2
  /-- No resource is expanded inside of itself under the same name. -/
  names_nodup : ∀ v ∈ visits, v.names.Nodup
  /-- Under another one it is fetched and expanded again. -/
  nested : ∀ v ∈ visits, ∀ imported ∈ Resource.importNames v.text, imported ∉ v.names →
    ∀ candidate text, loader.found? answers imported = some (candidate, text) →
      ⟨imported, candidate, text, v.chain⟩ ∈ visits
  /-- No text of a candidate is expanded inside of itself just if no import
  leads back to one under another name. -/
  candidates_nodup_iff :
    (∀ v ∈ visits, v.candidates.Nodup) ↔ ∀ v ∈ visits, ¬ v.LeadsBack loader answers
  /-- That is so if all resources go by the URIs of their texts. -/
  candidates_nodup_of_plain :
    (∀ v ∈ visits, ∀ name ∈ v.names, IsPlain name) → ∀ v ∈ visits, v.candidates.Nodup

theorem cutByName_of_holds {store : Store} {texts : List String} (hstore : store.Holds texts)
    (path : String → String) (locale : Option String) (schemes : List String) (uri : String) :
    ∃ visits, CutByName ⟨path, store.importDepth, locale, schemes⟩ store.read uri visits := by
  obtain ⟨opened, hopens, hevents, -⟩ := load_opens hstore path locale schemes uri
  have hchain : ([] : List (String × String)).map Prod.fst = [] := rfl
  obtain ⟨visits, hvisits, rfl⟩ := hopens.exists_visits hchain
  have hloads := loads_loaded hstore path locale schemes uri
  obtain ⟨names, hnames, hdepth⟩ := remaining_lt_importDepth hstore
  refine ⟨visits, {
    visits_iff := fun visits' => ⟨fun h => h.unique hvisits, fun h => h ▸ hvisits⟩
    reads := hvisits.textReads_eq hnames _ (hdepth uri)
    entries := hloads.perm_entries hchain hvisits
    events := hevents.trans (List.flatMap_map _ _ _)
    courses := fun pace wakings hpace =>
      Errand.course_of_same _ (fun path _ => ⟨rfl, hpace path⟩) wakings
    names_nodup := hvisits.names_nodup (List.nodup_singleton _)
    nested := fun v hv imported hmem hnames candidate text => hvisits.nested hv hmem hnames
    candidates_nodup_iff := hvisits.candidates_nodup_iff
    candidates_nodup_of_plain := hvisits.candidates_nodup_of_plain }⟩

/-- From texts in memory and from files, whatever imports what and under
whichever names, each load leaves out just the imports of the names that are
being expanded around them. -/
theorem cycles_are_cut_by_name (path : String → String) (locale : Option String)
    (schemes : List String) :
    (∀ (memory : Memory) (uri : String), ∃ visits,
        CutByName ⟨path, memory.store.importDepth, locale, schemes⟩ memory.read uri visits)
      ∧ ∀ (tree : FileTree) (uri : String), ∃ visits,
        CutByName ⟨path, tree.store.importDepth, locale, schemes⟩ tree.read uri visits :=
  ⟨fun memory => cutByName_of_holds memory.holds path locale schemes,
    fun tree => cutByName_of_holds tree.holds path locale schemes⟩

end Loader

/-! ## §6. A text that imports itself under another name. -/

namespace Mirror

/-- The text imports its own URI, and has one syntax error. -/
def text : String :=
  "import(\"a.lol\") <x \"X\"> <y \"Y\" z>"

def memory : Memory :=
  [("a.lol", .ok text)]

def loader : Loader where
  path := id
  depth := memory.store.importDepth
  locale := some "en"
  schemes := ["\x7b\x7bresource\x7d\x7d.lol"]

theorem importNames_text : Resource.importNames text = ["a.lol"] := by
  cbv

/-- The text, loaded by its reference. -/
def outer : Loader.Visit :=
  ⟨"l10n:a", "a.lol", text, []⟩

/-- The same text, loaded by its URI inside of itself. -/
def inner : Loader.Visit :=
  ⟨"a.lol", "a.lol", text, outer.chain⟩

theorem visits_text : loader.Visits memory.read [] "l10n:a" [outer, inner] := by
  have hfound : loader.found? memory.read "l10n:a" = some ("a.lol", text) := by cbv
  have hagain : loader.found? memory.read "a.lol" = some ("a.lol", text) := by cbv
  have hname : ∀ imported ∈ Resource.importNames text, imported = "a.lol" := by
    rw [importNames_text]
    exact fun imported h => List.mem_singleton.1 h
  -- inside of both of its names, the text has no import any more
  have hinner : loader.Visits memory.read outer.chain "a.lol" [inner] := by
    have h := @Loader.Visits.found loader memory.read outer.chain "a.lol" "a.lol" text
      (fun _ => []) hagain fun imported hmem haround => by
        rw [hname imported hmem] at haround
        exact absurd List.mem_cons_self haround
    rw [importNames_text] at h
    exact h
  have h := @Loader.Visits.found loader memory.read [] "l10n:a" "a.lol" text
    (fun _ => [inner]) hfound fun imported hmem _ => by
      rw [hname imported hmem]
      exact hinner
  rw [importNames_text] at h
  exact h

/-- Loaded by its reference, the text is fetched again and expanded inside of
itself, and its one error is announced twice. -/
theorem mirror_reflects :
    (∀ visits, loader.Visits memory.read [] "l10n:a" visits →
        ∃ v ∈ visits, v.candidates = ["a.lol", "a.lol"])
      ∧ Loader.textReads memory.read ((loader.load "l10n:a").run memory.read).2 = ["a.lol", "a.lol"]
      ∧ (Loader.diagnostics text).length = 1
      ∧ ((loader.load "l10n:a").run memory.read).2.events.length = 2 := by
  obtain ⟨all, hall⟩ :=
    Loader.cutByName_of_holds memory.holds id (some "en") loader.schemes "l10n:a"
  obtain rfl := (hall.visits_iff _).1 visits_text
  have hone : (Loader.diagnostics text).length = 1 := by cbv
  refine ⟨fun visits hvisits => ?_, hall.reads, hone, ?_⟩
  · obtain rfl := hvisits.unique visits_text
    exact ⟨inner, List.mem_cons_of_mem _ List.mem_cons_self, rfl⟩
  · calc ((loader.load "l10n:a").run memory.read).2.events.length
        = ([outer, inner].flatMap fun v => Loader.diagnostics v.text).length :=
          congrArg List.length hall.events
      _ = (Loader.diagnostics text).length + (Loader.diagnostics text).length := by
          rw [List.flatMap_cons, List.flatMap_cons, List.flatMap_nil, List.append_nil,
            List.length_append]
          rfl
      _ = 2 := by rw [hone]

end Mirror

end Phrasebook
