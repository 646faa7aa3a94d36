/-
  Phrasebook.Context.Basic
  ────────────────────────────────
  **CONTEXTS.**

  A context collects resources, is frozen once, and answers lookups from then
  on:

      collecting  —  resources are loaded or registered; no lookups
      frozen      —  lookups, which may build fallback tiers; no resources

  Its fallback tiers may be built at any time, with the resources that are
  registered by then.  A step that is refused gives an error instead of a
  context, so it changes nothing.
-/
import Phrasebook.Context.Chain
import Phrasebook.Load.Schedule
import Phrasebook.Store.Basic

namespace Phrasebook

/-! ## §1. Contexts. -/

/-- A resource of a context that is collecting. -/
structure Registration where
  uri : String
  /-- What came of its load, unless that is pending. -/
  result : Option Loader.Loaded

/-- What a context is doing. -/
inductive Stage where
  /-- It takes resources; these are registered, in this order. -/
  | collecting (resources : List Registration)
  /-- It answers lookups, first of all from this tier. -/
  | frozen (tier : Tier)

/-- Resources for several locales, looked up as one. -/
structure Context where
  around : Surroundings
  settings : Settings
  stage : Stage
  /-- The levels below, for the less preferred locales. -/
  below : List Level

/-- Why a context refuses a step. -/
inductive ContextError where
  | evaluation (e : EvalError)
  | definition (e : DefinitionError)
  | notFrozen
  | alreadyFrozen
  | pendingLoads
  | noRuntime
  deriving Repr, DecidableEq

/-- The wording of the error. -/
def ContextError.message : ContextError → String
  | evaluation e => e.message
  | definition e => e.message
  | notFrozen => "context is not frozen"
  | alreadyFrozen => "context is already frozen"
  | pendingLoads => "context has pending asynchronous loads, use freeze().await"
  | noRuntime => "asynchronous loading requires a tokio runtime"

namespace Context

/-- A context without resources. -/
def new (around : Surroundings) (settings : Settings) : Context where
  around
  settings
  stage := .collecting []
  below := Level.below settings

/-- What is registered, in order. -/
def uris (c : Context) : List String :=
  match c.stage with
  | .collecting resources => resources.map Registration.uri
  | .frozen tier => tier.uris

/-- How the context loads its own resources. -/
def loader (c : Context) : Loader :=
  c.around.loader c.settings

/-! ## §2. Registering resources. -/

/-- Register a resource with what is known of its load. -/
def register (c : Context) (uri : String) (result : Option Loader.Loaded) :
    Except ContextError Context :=
  match c.stage with
  | .collecting resources =>
    .ok { c with stage := .collecting (resources ++ [⟨uri, result⟩]) }
  | .frozen _ => .error .alreadyFrozen

/-- Load a resource and register it, also if its load fails. -/
def add (c : Context) (uri : String) : Errand (Except ContextError Context) :=
  match c.stage with
  | .frozen _ => pure (.error .alreadyFrozen)
  | .collecting _ => do
    let result ← c.loader.load uri
    pure (c.register uri (some result))

/-- Register a resource whose load runs later, side by side with others, if
there is something that can run it. -/
def addPending (c : Context) (hasRuntime : Bool) (uri : String) :
    Except ContextError Context :=
  match c.stage with
  | .frozen _ => .error .alreadyFrozen
  | .collecting _ => if hasRuntime then c.register uri none else .error .noRuntime

/-! ## §3. Freezing. -/

/-- Freeze a context, given what came of the loads. -/
def settle (c : Context) (loads : List Loader.Loaded) : Errand (Except ContextError Context) :=
  match Tier.ofLoads c.around c.settings c.uris loads with
  | .ok tier => .announce .ready (.done (.ok { c with stage := .frozen tier }))
  | .error e => .done (.error (.definition e))

/-- The results of loads, if none is pending. -/
def results? : List Registration → Option (List Loader.Loaded)
  | [] => some []
  | r :: rs =>
    match r.result, results? rs with
    | some result, some later => some (result :: later)
    | _, _ => none

/-- Freeze a context without pending loads. -/
def freezeNow (c : Context) : Errand (Except ContextError Context) :=
  match c.stage with
  | .frozen _ => pure (.error .alreadyFrozen)
  | .collecting resources =>
    match results? resources with
    | some loads => c.settle loads
    | none => pure (.error .pendingLoads)

/-- A registered resource, as it is joined: a pending load starts at time 0. -/
def joinable (c : Context) (answers : String → Reading) (pace : Pace) (r : Registration) :
    Joinable :=
  match r.result with
  | some result => .loaded result
  | none => .pending r.uri ((c.loader.load r.uri).course answers pace [0])

/-- The registered resources, as they are joined: each load goes on at the pace
of its place. -/
def joinables (c : Context) (answers : String → Reading) (pace : Nat → Pace)
    (resources : List Registration) : List Joinable :=
  resources.mapIdx fun i => c.joinable answers (pace i)

theorem mem_joinables {c : Context} {answers : String → Reading} {pace : Nat → Pace}
    {resources : List Registration} {j : Joinable} (hj : j ∈ c.joinables answers pace resources) :
    ∃ i, ∃ r ∈ resources, c.joinable answers (pace i) r = j := by
  obtain ⟨i, hi, heq⟩ := List.mem_mapIdx.1 hj
  exact ⟨i, _, List.getElem_mem hi, heq⟩

/-- Run the pending loads side by side, and freeze the context with what
comes of them; and what is seen of it. -/
def freeze (c : Context) (answers : String → Reading) (pace : Nat → Pace) :
    Except ContextError Context × Log :=
  match c.stage with
  | .frozen _ => (.error .alreadyFrozen, [])
  | .collecting resources =>
    let (loads, work) :=
      joinAll c.settings.loadTimeout 0 (c.joinables answers pace resources)
    let (result, log) := (c.settle loads).run answers
    (result, interleave work ++ log)

end Context

end Phrasebook
