/-
  Phrasebook.Proofs.Load.Blocking
  ────────────────────────────────
  **LOADS THAT BLOCK AND LOADS THAT WAIT.**

  A load that blocks is one loop inside of another: it has each text at once,
  and keeps the resources around it and what is seen of it on one desk, which
  it changes as it goes along.  A load that waits is an errand that takes time
  for each read, while other work goes on.  If the reads are answered alike,
  the two come to the same, and the same is seen of them:

      loadNow           —  the load that blocks
      loadWithinNow_eq  —  it is the run of the errand
      course_of_same    —  so is every course of an errand that is not broken
                           off, however long its reads wait
      waiting_changes_nothing
                        —  so the two loads are one
-/
import Phrasebook.Proofs.Load.Expansion
import Phrasebook.Proofs.Load.Joining
import Phrasebook.Store.Memory

namespace Phrasebook

/-! ## §1. Loads that block. -/

/-- What a load that blocks works with. -/
structure Desk where
  /-- The resources that are being loaded, the innermost one first. -/
  around : List String
  /-- What has been seen so far. -/
  log : Log

namespace Desk

/-- Something more is seen. -/
def see (desk : Desk) (note : Note) : Desk :=
  { desk with log := desk.log ++ [note] }

/-- The syntax errors of a text are announced, one after the other. -/
def report (desk : Desk) (errors : List SyntaxError) : Desk :=
  errors.foldl (fun desk e => desk.see (.event (.syntaxError e))) desk

/-- One more resource is being loaded. -/
def enter (desk : Desk) (uri : String) : Desk :=
  { desk with around := uri :: desk.around }

/-- The innermost resource is not being loaded any more. -/
def leave (desk : Desk) : Desk :=
  { desk with around := desk.around.tail }

theorem report_eq (errors : List SyntaxError) (desk : Desk) :
    desk.report errors
      = ⟨desk.around, desk.log ++ errors.map fun e => .event (.syntaxError e)⟩ := by
  unfold report
  induction errors generalizing desk with
  | nil => rw [List.map_nil, List.append_nil, List.foldl_nil]
  | cons e errors ih =>
    rw [List.foldl_cons, ih, List.map_cons]
    simp only [see, List.append_assoc, List.singleton_append]

end Desk

namespace Loader

section

variable (loader : Loader) (answers : String → Reading)

/-- Fetch the text of a URI. -/
def fetchNow (uri : String) (desk : Desk) : Except FetchError String × Desk :=
  (loader.fetched answers uri, desk.see (.read (loader.path uri)))

/-- Fetch one URI after the other, up to the first that has a text; the last
failure is kept meanwhile. -/
def fetchFirstNow (failure : FetchError) : List String → Desk → Except FetchError String × Desk
  | [], desk => (.error failure, desk)
  | uri :: uris, desk =>
    match loader.fetchNow answers uri desk with
    | (.ok text, desk) => (.ok text, desk)
    | (.error e, desk) => fetchFirstNow e uris desk

/-- Go through the entries of a text, and put behind those that are done what
stands for each of them. -/
def expandNow (load : String → Desk → Loaded × Desk) (done : List Entry) :
    List Entry → Desk → List Entry × Desk
  | [], desk => (done, desk)
  | .importing uri :: entries, desk =>
    if uri ∈ desk.around then expandNow load done entries desk
    else
      match load uri desk with
      | (.ok imported, desk) => expandNow load (done ++ imported) entries desk
      | (.error _, desk) => expandNow load done entries desk
  | entry :: entries, desk => expandNow load (done ++ [entry]) entries desk

/-- Load a resource inside of those on the desk, at most `depth` of them in a
row. -/
def loadWithinNow : (depth : Nat) → (uri : String) → Desk → Loaded × Desk
  | 0, uri, desk => (.error (.aborted uri), desk)
  | depth + 1, uri, desk =>
    match resolve uri loader.locale loader.schemes with
    | .error e => (.error (.malformed e), desk)
    | .ok candidates =>
      match loader.fetchFirstNow answers (.notFound uri) candidates desk with
      | (.error e, desk) => (.error (.unfetched uri e), desk)
      | (.ok text, desk) =>
        let salvage := Resource.salvage text
        let (entries, desk) := expandNow (loadWithinNow depth) [] salvage.entries
          ((desk.report salvage.errors).enter uri)
        (.ok entries, desk.leave)

/-- Load a resource at once, with a desk that is empty at first. -/
def loadNow (uri : String) : Loaded × Desk :=
  loader.loadWithinNow answers loader.depth uri ⟨[], []⟩

end

/-! ## §2. The run of an errand. -/

/-- The desk after the run of an errand. -/
def afterRun {α : Type} (answers : String → Reading) (e : Errand α) (desk : Desk) : α × Desk :=
  ((e.run answers).1, ⟨desk.around, desk.log ++ (e.run answers).2⟩)

section

variable {loader : Loader} {answers : String → Reading}

theorem afterRun_done {α : Type} (a : α) (desk : Desk) :
    afterRun answers (.done a) desk = (a, desk) := by
  unfold afterRun Errand.run
  rw [List.append_nil]

theorem afterRun_bind {α β : Type} (e : Errand α) (f : α → Errand β) (desk : Desk) :
    afterRun answers (e >>= f) desk
      = afterRun answers (f (afterRun answers e desk).1) (afterRun answers e desk).2 := by
  unfold afterRun
  rw [Errand.bind_eq, Errand.run_bind, List.append_assoc]

/-- The resources around an errand are those that were there before it. -/
theorem exists_afterRun {α : Type} (answers : String → Reading) (e : Errand α) (desk : Desk) :
    ∃ a log, afterRun answers e desk = (a, ⟨desk.around, log⟩) :=
  ⟨_, _, rfl⟩

theorem fetch_log (uri : String) :
    ((loader.fetch uri).run answers).2 = [.read (loader.path uri)] := by
  unfold fetch
  rw [Errand.run]
  cases answers (loader.path uri) with
  | ok text => rfl
  | error e => cases e <;> rfl

theorem reportAll_log (errors : List SyntaxError) :
    ((Errand.reportAll errors).run answers).2 = errors.map fun e => .event (.syntaxError e) := by
  induction errors with
  | nil => rfl
  | cons e errors ih =>
    rw [List.map_cons, ← ih]
    rfl

theorem fetchNow_eq (uri : String) (desk : Desk) :
    loader.fetchNow answers uri desk = afterRun answers (loader.fetch uri) desk := by
  unfold fetchNow afterRun
  rw [run_fetch, fetch_log]
  rfl

theorem fetchFirstNow_eq (uris : List String) : ∀ (failure : FetchError) (desk : Desk),
    loader.fetchFirstNow answers failure uris desk
      = afterRun answers (loader.fetchFirst failure uris) desk := by
  induction uris with
  | nil => exact fun failure desk => (afterRun_done _ desk).symm
  | cons uri uris ih =>
    intro failure desk
    rw [fetchFirstNow, fetchFirst, afterRun_bind, fetchNow_eq]
    obtain ⟨fetched, desk⟩ := afterRun answers (loader.fetch uri) desk
    cases fetched with
    | ok text => exact (afterRun_done _ desk).symm
    | error e => exact ih e desk

theorem report_eq_afterRun (errors : List SyntaxError) (desk : Desk) :
    desk.report errors = (afterRun answers (Errand.reportAll errors) desk).2 := by
  rw [Desk.report_eq, afterRun, reportAll_log]

/-- The entries that are done come first, and the desk is as after the
others. -/
theorem expandNow_eq {loadNow : String → Desk → Loaded × Desk} {load : String → Errand Loaded}
    {around : List String}
    (hload : ∀ uri log, loadNow uri ⟨around, log⟩ = afterRun answers (load uri) ⟨around, log⟩)
    (entries : List Entry) : ∀ (done : List Entry) (log : Log),
    expandNow loadNow done entries ⟨around, log⟩
      = afterRun answers (do
          let later ← expand load around entries
          pure (done ++ later)) ⟨around, log⟩ := by
  -- by induction on the entries, whatever is done already
  induction entries with
  | nil =>
    intro done log
    rw [expand, pure_bind, List.append_nil]
    exact (afterRun_done _ _).symm
  | cons entry entries ih =>
    intro done log
    cases entry with
    | importing uri =>
      rw [expandNow, expand]
      split
      · rw [ih]
        simp only [pure_bind, bind_assoc, List.nil_append]
      · rw [hload, bind_assoc, afterRun_bind]
        -- the resources around are those that were there before the load
        obtain ⟨imported, log', hafter⟩ := exists_afterRun answers (load uri) ⟨around, log⟩
        rw [hafter]
        cases imported with
        | error failure =>
          dsimp only
          rw [ih, bind_assoc]
          rfl
        | ok imported =>
          dsimp only
          rw [ih, bind_assoc]
          simp only [pure_bind, List.append_assoc]
    | entity _ | macroDef _ | comment _ | junk _ =>
      rw [expandNow, expand, ih]
      · simp only [bind_assoc, pure_bind, List.append_assoc, List.singleton_append]
      all_goals exact fun _ => Entry.noConfusion

/-- A load that blocks is the run of the errand, and leaves the resources
around it as it has found them. -/
theorem loadWithinNow_eq (depth : Nat) : ∀ (uri : String) (desk : Desk),
    loader.loadWithinNow answers depth uri desk
      = afterRun answers (loader.loadWithin depth desk.around uri) desk := by
  -- by induction on the bound: inside, one more resource is on the desk
  induction depth with
  | zero => exact fun uri desk => (afterRun_done _ desk).symm
  | succ depth ih =>
    intro uri desk
    rw [loadWithinNow, loadWithin]
    cases resolve uri loader.locale loader.schemes with
    | error e => exact (afterRun_done _ desk).symm
    | ok candidates =>
      dsimp only
      rw [afterRun_bind, fetchFirstNow_eq]
      obtain ⟨fetched, log, hafter⟩ :=
        exists_afterRun answers (loader.fetchFirst (.notFound uri) candidates) desk
      rw [hafter]
      cases fetched with
      | error e => exact (afterRun_done _ _).symm
      | ok text =>
        dsimp only
        rw [afterRun_bind, ← report_eq_afterRun, Desk.report_eq, afterRun_bind]
        dsimp only [Desk.enter]
        have hload : ∀ uri' log,
            loader.loadWithinNow answers depth uri' ⟨uri :: desk.around, log⟩
              = afterRun answers (loader.loadWithin depth (uri :: desk.around) uri')
                ⟨uri :: desk.around, log⟩ := fun uri' log => ih uri' _
        rw [expandNow_eq hload]
        simp only [List.nil_append, bind_pure]
        exact (afterRun_done _ _).symm

end

/-- A load that blocks is the run of the errand. -/
theorem loadNow_eq (loader : Loader) (answers : String → Reading) (uri : String) :
    loader.loadNow answers uri
      = (((loader.load uri).run answers).1, ⟨[], ((loader.load uri).run answers).2⟩) :=
  loadWithinNow_eq loader.depth uri ⟨[], []⟩

end Loader

/-! ## §3. The courses of an errand. -/

/-- What is seen of a course, from its first stretch to its last. -/
def Course.log {α : Type} (c : Course α) : Log :=
  c.stretches.flatMap Stretch.log

theorem Course.log_noting {α : Type} (note : Note) (c : Course α) :
    (c.noting note).log = note :: c.log := by
  unfold noting log
  cases hs : c.stretches with
  | nil => rfl
  | cons s ss => rfl

/-- If its reads are answered alike and none breaks it off, an errand that
takes time comes to the same, and the same is seen of it. -/
theorem Errand.course_of_same {α : Type} {answers awaited : String → Reading} {pace : Pace}
    (e : Errand α) (hsame : ∀ path ∈ e.reads answers,
      awaited path = answers path ∧ pace.breaksOff path = false) : ∀ wakings : List Nat,
    (e.course awaited pace wakings).result = some (e.run answers).1
      ∧ (e.course awaited pace wakings).log = (e.run answers).2 := by
  induction e with
  | done a => exact fun wakings => ⟨rfl, rfl⟩
  | announce event next ih =>
    intro wakings
    obtain ⟨hresult, hlog⟩ := ih hsame wakings
    rw [course, Course.noting_result, Course.log_noting, hresult, hlog]
    exact ⟨rfl, rfl⟩
  | read path next ih =>
    intro wakings
    rw [reads_read] at hsame
    obtain ⟨hanswer, hunbroken⟩ := hsame path List.mem_cons_self
    have hlater := ih (answers path) fun path' hpath' => hsame path' (List.mem_cons_of_mem _ hpath')
    -- the read itself, after its wait
    have hreading : ∀ wakings : List Nat,
        (((next (awaited path)).course awaited pace wakings).noting (.read path)).result
            = some ((Errand.read path next).run answers).1
          ∧ (((next (awaited path)).course awaited pace wakings).noting (.read path)).log
            = ((Errand.read path next).run answers).2 := by
      intro wakings
      obtain ⟨hresult, hlog⟩ := hlater wakings
      rw [hanswer, Course.noting_result, Course.log_noting, hresult, hlog]
      exact ⟨rfl, rfl⟩
    rw [course]
    simp only [hunbroken, Bool.false_eq_true, if_false]
    cases pace.wait path with
    | none => exact hreading wakings
    | some duration => exact hreading (_ :: wakings)

/-! ## §4. One load, done in two ways. -/

namespace Loader

/-- A load that waits comes to what the load that blocks comes to, and the
same reads and announcements are seen of it in the same order, if each of
these reads is answered to both alike and does not break the load off.  That
also holds of a load that waits with one stack for all loads inside of it;
whether they block or wait, they leave nothing on it. -/
theorem waiting_changes_nothing (loader : Loader) (answers awaited : String → Reading) (pace : Pace)
    (wakings : List Nat) (uri : String)
    (hsame : ∀ path ∈ (loader.loadNow answers uri).2.log.reads,
      awaited path = answers path ∧ pace.breaksOff path = false) :
    let now := loader.loadNow answers uri
    let course := (loader.load uri).course awaited pace wakings
    let onStack := (loader.loadOn loader.depth uri []).course awaited pace wakings
    (course.result = some now.1
        ∧ course.log.reads = now.2.log.reads
        ∧ course.log.events = now.2.log.events
        ∧ course.log = now.2.log)
      ∧ (onStack.result = some (now.1, []) ∧ onStack.log = now.2.log)
      ∧ now.2.around = []
      ∧ (loader.load uri).run answers = (now.1, now.2.log) := by
  intro now course onStack
  have hnow : now = (_, ⟨[], _⟩) := loader.loadNow_eq answers uri
  have hrun : (loader.load uri).run answers = (now.1, now.2.log) := by rw [hnow]
  have hrunOn : (loader.loadOn loader.depth uri []).run answers = ((now.1, []), now.2.log) := by
    have hbind : loader.loadOn loader.depth uri []
        = (loader.load uri).bind fun result => .done (result, []) := loadOn_eq loader _ uri []
    rw [hbind, Errand.run_bind, hrun]
    exact Prod.ext rfl (List.append_nil _)
  have hcourses : ∀ {α : Type} {e : Errand α} {a : α}, e.run answers = (a, now.2.log) →
      ∀ wakings : List Nat, (e.course awaited pace wakings).result = some a
        ∧ (e.course awaited pace wakings).log = now.2.log := by
    intro α e a he
    have hreads : e.reads answers = now.2.log.reads := by
      unfold Errand.reads
      rw [he]
    have hcourse := e.course_of_same (hreads ▸ hsame)
    rw [he] at hcourse
    exact hcourse
  obtain ⟨hresult, hlog⟩ := hcourses hrun wakings
  refine ⟨⟨hresult, congrArg Log.reads hlog, congrArg Log.events hlog, hlog⟩,
    hcourses hrunOn wakings, ?_, hrun⟩
  rw [hnow]

end Loader

/-! ## §5. A text with a cycle, and a text that comes late. -/

namespace Postcard

/-- The first candidate of one text cannot be read, and one import has no text;
another one leads back. -/
def memory : Memory :=
  [("fr/card", .error (.failed "permission denied")),
    ("card", .ok "import(\"l10n:stamp\") <to \"you\"> <from <by \"me\"> import(\"l10n:town\")"),
    ("stamp", .ok "import(\"l10n:card\") <price \"1\">")]

def loader : Loader where
  path := id
  depth := memory.store.importDepth
  locale := some "fr"
  schemes := ["\x7b\x7blocale\x7d\x7d/\x7b\x7bresource\x7d\x7d", "\x7b\x7bresource\x7d\x7d"]

/-- One text has to be waited for, and one that is not read breaks loads
off. -/
def pace : Pace where
  wait path := if path = "stamp" then some 50 else none
  breaksOff path := path == "letter"

def reads : List String :=
  ["fr/card", "card", "fr/stamp", "stamp", "fr/town", "town"]

/-- The paths that are read, and how many events there are. -/
def outline (log : Log) : List String × Nat :=
  (log.reads, log.events.length)

theorem outline_loadNow :
    outline (loader.loadNow memory.read "l10n:card").2.log = (reads, 1) := by
  cbv

/-- The late text is read in its place, and the text around it is not read
again. -/
theorem postcard_arrives :
    (∀ path ∈ (loader.loadNow memory.read "l10n:card").2.log.reads,
        memory.read path = memory.read path ∧ pace.breaksOff path = false)
      ∧ ((loader.load "l10n:card").course memory.read pace [0]).log.reads = reads
      ∧ ((loader.load "l10n:card").course memory.read pace [0]).log.events.length = 1 := by
  obtain ⟨hreadsNow, heventsNow⟩ := Prod.mk.inj outline_loadNow
  have hsame : ∀ path ∈ (loader.loadNow memory.read "l10n:card").2.log.reads,
      memory.read path = memory.read path ∧ pace.breaksOff path = false := by
    rw [hreadsNow]
    decide
  obtain ⟨⟨-, hreads, hevents, -⟩, -⟩ :=
    Loader.waiting_changes_nothing loader memory.read memory.read pace [0] "l10n:card" hsame
  exact ⟨hsame, hreads.trans hreadsNow, (congrArg List.length hevents).trans heventsNow⟩

end Postcard

end Phrasebook
