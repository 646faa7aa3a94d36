/-
  Phrasebook.Context.Tier
  ────────────────────────────────
  **TIERS.**

  A tier is what has been loaded for one locale, compiled once and never
  changed: its definitions, its globals, and the failures of its loads.
  Lookups in a tier see its own definitions and globals only.
-/
import Phrasebook.Eval.Lookup
import Phrasebook.Load.Loader
import Phrasebook.Settings

namespace Phrasebook

/-! ## §1. What the tiers of a context share. -/

/-- What all tiers of a context have in common. -/
structure Surroundings where
  /-- The path of the text of a URI. -/
  path : String → String
  /-- More resources than can import one another in a row. -/
  importDepth : Nat
  /-- Globals besides those that every locale has. -/
  globals : Bindings
  /-- What the functions of the host program do. -/
  host : Host

namespace Surroundings

/-- How a tier loads its resources. -/
def loader (around : Surroundings) (settings : Settings) : Loader where
  path := around.path
  depth := around.importDepth
  locale := settings.locale
  schemes := settings.schemes

/-- The globals of every locale: its name, and its plural categories. -/
def localeGlobals (locale : String) : Bindings :=
  [("plural", .function (.plural locale)), ("locale", .text locale)]

/-- The globals of a tier.  Those of the host program win over those of the
locale; without a locale there are no others. -/
def tierGlobals (around : Surroundings) (settings : Settings) : Bindings :=
  around.globals ++ (settings.locale.elim [] localeGlobals)

end Surroundings

/-! ## §2. Tiers. -/

/-- What has been loaded for one locale. -/
structure Tier where
  settings : Settings
  /-- What was loaded, in the order of registration. -/
  uris : List String
  registry : Registry
  globals : Bindings
  /-- The failures of loads, in the order of registration. -/
  failures : List LoadFailure

namespace Tier

/-- The entries of the loads that went well. -/
def loadedEntries (loads : List Loader.Loaded) : List Entry :=
  loads.flatMap fun
    | .ok entries => entries
    | .error _ => []

/-- The failures among the loads. -/
def loadFailures (loads : List Loader.Loaded) : List LoadFailure :=
  loads.filterMap fun
    | .ok _ => none
    | .error failure => some failure

/-- The tier with these loads, all of whose entries are defined in order. -/
def ofLoads (around : Surroundings) (settings : Settings) (uris : List String)
    (loads : List Loader.Loaded) : Except DefinitionError Tier :=
  match Registry.empty.addEntries (loadedEntries loads) with
  | (_, some e) => .error e
  | (registry, none) => .ok
    { settings, uris, registry
      globals := around.tierGlobals settings
      failures := loadFailures loads }

/-- Load resources, one after the other, and make them a tier. -/
def load (around : Surroundings) (settings : Settings) (uris : List String) :
    Errand (Except DefinitionError Tier) := do
  let loads ← Errand.forEach (around.loader settings).load uris
  match ofLoads around settings uris loads with
  | .ok tier => .announce .ready (.done (.ok tier))
  | .error e => .done (.error e)

/-! ## §3. Lookups in one tier. -/

/-- Where the entities of a tier are evaluated. -/
def environment (tier : Tier) (host : Host) : Environment :=
  ⟨tier.registry, tier.globals, host⟩

/-- The entity with a name, if callers may ask for it. -/
def publicEntity? (tier : Tier) (id : String) : Option Entity :=
  match tier.registry.findEntity? id with
  | some e => if e.it.isLocal then none else some e.it
  | none => none

/-- The names that callers may ask for, in order. -/
def publicIds (tier : Tier) : List String :=
  tier.registry.publicIds

end Tier

end Phrasebook
