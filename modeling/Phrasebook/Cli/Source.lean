/-
  Phrasebook.Cli.Source
  ────────────────────────────────
  **SETTINGS AND CONTEXTS OF A COMMAND.**

  Settings come from a configuration file, or are the standard ones; what is
  given on the command line wins.  Resources are files below the root.
-/
import Phrasebook.Cli.Command
import Phrasebook.Cli.Outcome
import Phrasebook.Context.Lookup
import Phrasebook.Store.FileTree

namespace Phrasebook

namespace Cli

/-- Settings with what is given on the command line. -/
def Sources.override (s : Sources) (settings : Settings) : Settings :=
  { settings with
    locales := if s.locales.isEmpty then settings.locales else s.locales
    schemes := if s.schemes.isEmpty then settings.schemes else s.schemes }

/-- The settings of a command. -/
def Sources.settings (s : Sources) : Errand (Except Fatal Settings) :=
  match s.config with
  | none => pure (.ok (s.override .standard))
  | some file => .read file fun
    | .error e => pure (.error (.unreadableConfig file e))
    | .ok text =>
      match Settings.ofJson? text with
      | none => pure (.error (.invalidConfig file))
      | some settings => pure (.ok (s.override settings))

/-- There are no functions of a host program. -/
def noHost : Host := fun _ _ _ => .ok .absent

/-- What all tiers of a command's contexts have in common. -/
def Sources.around (s : Sources) (importDepth : Nat) : Surroundings where
  path := Path.ofUri s.root
  importDepth
  globals := []
  host := noHost

/-- Add resources to a context, one after the other. -/
def addAll (c : Context) : List String → Errand (Except ContextError Context)
  | [] => pure (.ok c)
  | uri :: uris => do
    match ← c.add uri with
    | .error e => pure (.error e)
    | .ok c => addAll c uris

/-- A context with the resources of a command, frozen. -/
def Sources.context (s : Sources) (importDepth : Nat) (settings : Settings) :
    Errand (Except ContextError Context) := do
  match ← addAll (.new (s.around importDepth) settings) s.resources with
  | .error e => pure (.error e)
  | .ok c => c.freezeNow

/-- The failures of a context's loads. -/
def loadFailures (c : Context) : List LoadFailure :=
  match c.stage with
  | .collecting _ => []
  | .frozen tier => tier.failures

/-- A warning. -/
def warning (text : String) : Complaint :=
  .line (Colour.yellow.paint "warning:" ++ " " ++ text)

end Cli

end Phrasebook
