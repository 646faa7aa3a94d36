/-
  Phrasebook.Settings
  ────────────────────────────────
  **SETTINGS OF A CONTEXT.**

  Which locales to look in, where their resources are, and how long to wait
  for a load.  Settings are written as a JSON object, or as an array of the
  same values in their order; what is missing has its default, what is
  unknown is skipped, and what is given twice is an error.
-/
import Phrasebook.Json.Reader

namespace Phrasebook

/-! ## §1. Settings. -/

/-- The settings of a context. -/
structure Settings where
  /-- The locales, the most preferred first. -/
  locales : List String
  /-- The templates of candidate URIs, in the order to try them. -/
  schemes : List String
  /-- How long to wait for each load, in milliseconds. -/
  loadTimeout : Nat
  deriving Repr, DecidableEq

namespace Settings

/-- The settings where none are given. -/
def standard : Settings where
  locales := ["en-US"]
  schemes := ["./locales/\x7b\x7blocale\x7d\x7d/\x7b\x7bresource\x7d\x7d"]
  loadTimeout := 30000

/-- The most preferred locale. -/
def locale (s : Settings) : Option String :=
  s.locales.head?

/-- The settings without the most preferred locale, if others remain. -/
def fallback (s : Settings) : Option Settings :=
  match s.locales with
  | _ :: l :: ls => some { s with locales := l :: ls }
  | _ => none

/-! ## §2. Reading settings. -/

/-- A member of a settings object. -/
inductive Member where
  | locales (ls : List String)
  | schemes (ss : List String)
  | loadTimeout (ms : Nat)
  | unknown

/-- The reader for the value of a member. -/
def member (key : String) : Json.Reader Member := fun s =>
  if key = "locales" then (Json.list Json.text s).map fun (ls, r) => (.locales ls, r)
  else if key = "schemes" then (Json.list Json.text s).map fun (ss, r) => (.schemes ss, r)
  else if key = "load_timeout_ms" then
    (Json.natural s).map fun (ms, r) => (.loadTimeout ms, r)
  else (Json.skip s).map fun (_, r) => (.unknown, r)

/-- Settings of which some are given. -/
structure Given where
  locales : Option (List String)
  schemes : Option (List String)
  loadTimeout : Option Nat

/-- Add a member, unless it has been given already. -/
def Given.add (g : Given) : Member → Option Given
  | .locales ls => if g.locales.isSome then none else some { g with locales := some ls }
  | .schemes ss => if g.schemes.isSome then none else some { g with schemes := some ss }
  | .loadTimeout ms =>
    if g.loadTimeout.isSome then none else some { g with loadTimeout := some ms }
  | .unknown => some g

/-- Add several members. -/
def Given.addAll (g : Given) : List Member → Option Given
  | [] => some g
  | m :: ms => (g.add m).bind fun g => g.addAll ms

/-- The settings, with defaults for what is not given. -/
def Given.complete (g : Given) : Settings where
  locales := g.locales.getD standard.locales
  schemes := g.schemes.getD standard.schemes
  loadTimeout := g.loadTimeout.getD standard.loadTimeout

/-- Take the next of several values in an array off, if there is one. -/
def nextValue {α : Type} (isFirst : Bool) (value : Json.Reader α) :
    Json.Reader (Option α) := fun s =>
  match Json.dropSpace s with
  | ']' :: r => some (none, ']' :: r)
  | ',' :: r => if isFirst then none else (value r).map fun (a, r) => (some a, r)
  | r => if isFirst then (value r).map fun (a, r) => (some a, r) else none

/-- Take settings off that are written as an array. -/
def array : Json.Reader Given := fun s =>
  match Json.dropSpace s with
  | '[' :: r => do
    let (locales, r) ← nextValue true (Json.list Json.text) r
    let (schemes, r) ← nextValue false (Json.list Json.text) r
    let (loadTimeout, r) ← nextValue false Json.natural r
    match Json.dropSpace r with
    | ']' :: r => pure (⟨locales, schemes, loadTimeout⟩, r)
    | _ => none
  | _ => none

/-- Take settings off that are written as an object. -/
def object : Json.Reader Given := fun s => do
  let (members, r) ← Json.object member s
  let g ← Given.addAll ⟨none, none, none⟩ members
  pure (g, r)

/-- The settings that a JSON text gives. -/
def ofJson? (text : String) : Option Settings :=
  let s := text.toList
  let given := match Json.dropSpace s with
    | '[' :: _ => Json.wholeText array s
    | _ => Json.wholeText object s
  given.map Given.complete

end Settings

end Phrasebook
