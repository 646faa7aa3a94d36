/-
  Phrasebook.Cli.Check
  ────────────────────────────────
  **THE COMMAND `check`.**

  Every file is read with recovery, so all its syntax errors are reported.
  The command succeeds if no file has junk.
-/
import Phrasebook.Cli.Outcome
import Phrasebook.Load.Errand

namespace Phrasebook

namespace Cli

/-! ## §1. One file. -/

/-- A file that has been checked. -/
structure Checked where
  file : String
  text : String
  salvage : Resource.Salvage

namespace Checked

/-- The number of entities. -/
def entityCount (c : Checked) : Nat :=
  c.salvage.entries.countP fun
    | .entity _ => true
    | _ => false

/-- The number of macros. -/
def macroCount (c : Checked) : Nat :=
  c.salvage.entries.countP fun
    | .macroDef _ => true
    | _ => false

/-- Has part of the file become junk? -/
def hasJunk (c : Checked) : Bool :=
  c.salvage.entries.any fun
    | .junk _ => true
    | _ => false

/-- The verdict on the file. -/
def verdict (c : Checked) : String :=
  if c.salvage.errors.isEmpty then
    Colour.green.paint "ok" ++ " " ++ c.file ++ " (" ++ integerText c.entityCount
      ++ " entities, " ++ integerText c.macroCount ++ " macros)"
  else
    Colour.red.paint "error" ++ " " ++ c.file ++ " (" ++ integerText c.salvage.errors.length
      ++ " errors)"

/-- The reports of the syntax errors. -/
def reports (c : Checked) : List Complaint :=
  c.salvage.errors.map fun e => .report (.ofError c.file c.text e)

/-- The verdict as a document. -/
def document (c : Checked) : Json.Document :=
  .object
    [("file", .text c.file), ("entities", .natural c.entityCount),
     ("macros", .natural c.macroCount),
     ("errors", .list (c.salvage.errors.map fun e => .object
      [("line", .natural e.position.line), ("column", .natural e.position.column),
       ("message", .text e.complaint)]))]

end Checked

/-! ## §2. All files. -/

/-- Read files, up to the first that cannot be read. -/
def readAll : List String → Errand (List Checked × Option Fatal)
  | [] => pure ([], none)
  | file :: files =>
    .read file fun
      | .error e => pure ([], some (.unreadableFile file e))
      | .ok text => do
        let (later, fatal) ← readAll files
        pure (⟨file, text, Resource.salvage text⟩ :: later, fatal)

/-- What comes of a check.  Verdicts as documents are written all at once, and
not at all if a file cannot be read. -/
def checkOutcome (json : Bool) (checked : List Checked) (fatal : Option Fatal) : Outcome :=
  let output := if json then [] else checked.map Checked.verdict
  let complaints := if json then [] else checked.flatMap Checked.reports
  match fatal with
  | some e => .fatal output complaints e
  | none =>
    { code := if checked.any Checked.hasJunk then dataFault else success
      output :=
        if json then [(Json.Document.list (checked.map Checked.document)).write] else output
      complaints }

/-- Check files. -/
def runCheck (files : List String) (json : Bool) : Errand Outcome := do
  let (checked, fatal) ← readAll files
  pure (checkOutcome json checked fatal)

end Cli

end Phrasebook
