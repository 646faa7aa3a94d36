/-
  Phrasebook.Context.Chain
  ────────────────────────────────
  **FALLBACK CHAINS.**

  Below a tier there is a level for each less preferred locale.  A level is
  planned until a lookup comes down to it; then its tier is built, with the
  resources of the tier above it, and kept.
-/
import Phrasebook.Context.Tier

namespace Phrasebook

/-! ## §1. Levels. -/

/-- A level of a fallback chain. -/
inductive Level where
  /-- Nothing has been loaded yet. -/
  | planned (settings : Settings)
  | built (tier : Tier)

/-- The settings of the levels below, for `n` locales more at most. -/
def Settings.fallbacksWithin : (n : Nat) → Settings → List Settings
  | 0, _ => []
  | n + 1, s =>
    match s.fallback with
    | none => []
    | some s => s :: fallbacksWithin n s

/-- The settings of all levels below, from the most preferred locale on. -/
def Settings.fallbacks (s : Settings) : List Settings :=
  s.fallbacksWithin s.locales.length

/-- The levels below a context with these settings. -/
def Level.below (s : Settings) : List Level :=
  s.fallbacks.map .planned

/-- The tier of a level, which is built with these resources if it is only
planned.  There is none if what was loaded cannot be defined. -/
def Level.tier (around : Surroundings) (uris : List String) : Level → Errand (Option Tier)
  | .built tier => pure (some tier)
  | .planned settings => do
    let tier ← Tier.load around settings uris
    pure tier.toOption

/-! ## §2. Chains. -/

/-- A tier and the levels below it. -/
structure Chain where
  tier : Tier
  below : List Level

/-- Do something with the chain at the `n`-th of several levels, `0` being
the first, and keep what has been built for it.  Nothing is done if there is
no such level. -/
def Level.atDepth {α : Type} (around : Surroundings) (act : Chain → Errand (Chain × α)) :
    (n : Nat) → (uris : List String) → List Level → Errand (List Level × Option α)
  | _, _, [] => pure ([], none)
  | n, uris, level :: levels => do
    match ← level.tier around uris with
    | none => pure ([], none)
    | some tier =>
      match n with
      | 0 => do
        let (chain, a) ← act ⟨tier, levels⟩
        pure (.built chain.tier :: chain.below, some a)
      | n + 1 => do
        let (levels, a) ← atDepth around act n tier.uris levels
        pure (.built tier :: levels, a)

/-! ## §3. Lookups. -/

/-- What a search for an entity comes to. -/
inductive Finding where
  /-- The entity, and the tier that has it. -/
  | found (entity : Entity) (tier : Tier)
  /-- No tier has it; this is the last one. -/
  | missed (last : Tier)

/-- Search a tier, then the levels below, for an entity that callers may ask
for, and keep what is built for it. -/
def Chain.searchFrom (around : Surroundings) (id : String) :
    Tier → List Level → Errand (Finding × List Level)
  | tier, levels =>
    match tier.publicEntity? id with
    | some entity => pure (.found entity tier, levels)
    | none =>
      match levels with
      | [] => pure (.missed tier, [])
      | level :: levels => do
        match ← level.tier around tier.uris with
        | none => pure (.missed tier, [])
        | some next => do
          let (finding, levels) ← searchFrom around id next levels
          pure (finding, .built next :: levels)

/-- Search a chain for an entity that callers may ask for. -/
def Chain.search (around : Surroundings) (id : String) (chain : Chain) :
    Errand (Chain × Finding) := do
  let (finding, below) ← searchFrom around id chain.tier chain.below
  pure (⟨chain.tier, below⟩, finding)

/-- The answer to a lookup.  The first tier that has the entity answers, with
a value or an error; if none has it, the names of the last tier are
suggested. -/
def Finding.answer {α : Type} (host : Host) (id : String)
    (ask : Environment → Entity → Except EvalError α) : Finding → Except EvalError α
  | .found entity tier => ask (tier.environment host) entity
  | .missed last => .error (.entityNotFound id (suggestions id last.publicIds))

/-- Look an entity up in a chain. -/
def Chain.lookup {α : Type} (around : Surroundings) (id : String)
    (ask : Environment → Entity → Except EvalError α) (chain : Chain) :
    Errand (Chain × Except EvalError α) := do
  let (chain, finding) ← chain.search around id
  pure (chain, finding.answer around.host id ask)

end Phrasebook
