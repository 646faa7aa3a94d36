/-
  Phrasebook.Cli.Program
  ────────────────────────────────
  **THE COMMAND LINE.**

  The whole program is one errand: it reads files, and ends with an outcome.
-/
import Phrasebook.Cli.Check
import Phrasebook.Cli.Coverage
import Phrasebook.Cli.Get

namespace Phrasebook

namespace Cli

/-- The lines of a page. -/
def Page.lines : Page → List String
  | .version => ["l20n 0.1.0"]
  | .help =>
    ["L20n localization resource tools",
     "",
     "Usage: l20n [OPTIONS] <COMMAND>",
     "",
     "Commands:",
     "  check     Check resource syntax",
     "  get       Render an entity value or attribute",
     "  coverage  Report entity coverage across locales",
     "  help      Print this message"]

/-- What comes of a command line that is not run. -/
def Stop.outcome : Stop → Outcome
  | .page p => ⟨success, p.lines, []⟩
  | .usage e => ⟨usageFault, [], [.line ("error: " ++ e.message)]⟩

/-- Run a command. -/
def Command.run (importDepth : Nat) : Command → Errand Outcome
  | .check files json => runCheck files json
  | .get id sources params attributeName json =>
    runGet importDepth id sources params attributeName json
  | .coverage sources strict json => runCoverage importDepth sources strict json

/-- Run a command line.  No more than `importDepth` resources may import one
another in a row. -/
def program (importDepth : Nat) (args : List String) : Errand Outcome :=
  match readCommand args with
  | .error stop => pure stop.outcome
  | .ok command => command.run importDepth

/-- What comes of a command line in a tree of files. -/
def runIn (files : FileTree) (args : List String) : Outcome :=
  ((program files.store.importDepth args).run files.read).1

end Cli

end Phrasebook
