/-
  Phrasebook.Cli.Coverage
  ────────────────────────────────
  **THE COMMAND `coverage`.**

  The first locale is the reference.  For every other locale, the entities of
  the reference that it lacks are missing, and those that the reference lacks
  are extra.  Each locale is loaded alone, without anything to fall back to.
-/
import Phrasebook.Cli.Source
import Phrasebook.Text.Table

namespace Phrasebook

namespace Cli

/-! ## §1. Comparing locales. -/

/-- What a locale has of the reference. -/
structure Coverage where
  locale : String
  /-- How many entities of the reference it has. -/
  translated : Nat
  /-- The entities of the reference that it lacks, in order. -/
  missing : List String
  /-- Its entities that the reference lacks, in order. -/
  extra : List String
  deriving Repr, DecidableEq

/-- Compare the entities of a locale with those of the reference. -/
def Coverage.compare (reference : List String) (locale : String) (ids : List String) :
    Coverage where
  locale
  translated := reference.countP fun id => ids.contains id
  missing := reference.filter fun id => !ids.contains id
  extra := ids.filter fun id => !reference.contains id

/-- The entities of a locale alone, with warnings of failed loads. -/
def localeIds (importDepth : Nat) (sources : Sources) (settings : Settings) (locale : String) :
    Errand (Except Fatal (List String × List Complaint)) := do
  match ← sources.context importDepth { settings with locales := [locale] } with
  | .error e => pure (.error (.context e))
  | .ok c => do
    let warnings := (loadFailures c).map fun failure =>
      warning (locale ++ ": " ++ failure.message)
    match ← c.ids 0 with
    | (_, some (.ok ids)) => pure (.ok (ids, warnings))
    | (_, some (.error e)) => pure (.error (.context e))
    | (_, none) => pure (.ok ([], warnings))

/-- Load locales and compare them with the reference; also the warnings, which
are there even if an error ends the work. -/
def compareAll (importDepth : Nat) (sources : Sources) (settings : Settings)
    (reference : List String) :
    List String → Errand (Except Fatal (List Coverage) × List Complaint)
  | [] => pure (.ok [], [])
  | locale :: locales => do
    match ← localeIds importDepth sources settings locale with
    | .error e => pure (.error e, [])
    | .ok (ids, warnings) => do
      let (later, more) ← compareAll importDepth sources settings reference locales
      pure (later.map (Coverage.compare reference locale ids :: ·), warnings ++ more)

/-! ## §2. Output. -/

/-- The comparison as a document. -/
def Coverage.document (total : Nat) (c : Coverage) : Json.Document :=
  .object
    [("locale", .text c.locale), ("translated", .natural c.translated),
     ("total", .natural total), ("missing", .list (c.missing.map .text)),
     ("extra", .list (c.extra.map .text))]

/-- The comparisons as a table. -/
def coverageTable (total : Nat) (cs : List Coverage) : Table where
  header := ["Locale", "Coverage", "Missing", "Extra"]
  rows := cs.map fun c =>
    [c.locale, integerText c.translated ++ "/" ++ integerText total,
     integerText c.missing.length, integerText c.extra.length]

/-- The list of what is missing, if anything is. -/
def Coverage.missingLines (c : Coverage) : List String :=
  if c.missing.isEmpty then []
  else "" :: ("Missing in " ++ Colour.yellow.paint c.locale ++ ":")
    :: c.missing.map fun id => "  - " ++ id

/-- The lines that show the comparisons. -/
def coverageLines (reference : String) (total : Nat) (cs : List Coverage) : List String :=
  ("Reference locale " ++ reference ++ ": " ++ integerText total ++ " entities")
    :: (coverageTable total cs).lines ++ cs.flatMap Coverage.missingLines

/-- What comes of the comparisons.  Only in strict mode is it a fault if a
locale lacks something. -/
def coverageOutcome (reference : String) (total : Nat) (strict json : Bool)
    (warnings : List Complaint) (cs : List Coverage) : Outcome where
  code := if strict && cs.any (fun c => !c.missing.isEmpty) then dataFault else success
  output :=
    if json then [(Json.Document.list (cs.map (Coverage.document total))).write]
    else coverageLines reference total cs
  complaints := warnings

/-! ## §3. The command. -/

/-- Compare the locales of the settings. -/
def runCoverage (importDepth : Nat) (sources : Sources) (strict json : Bool) : Errand Outcome := do
  match ← sources.settings with
  | .error e => pure (.fatal [] [] e)
  | .ok settings =>
    match settings.locales with
    | [] => pure (.fatal [] [] .noLocale)
    | reference :: others => do
      match ← localeIds importDepth sources settings reference with
      | .error e => pure (.fatal [] [] e)
      | .ok (ids, warnings) => do
        let (compared, more) ← compareAll importDepth sources settings ids others
        match compared with
        | .error e => pure (.fatal [] (warnings ++ more) e)
        | .ok cs =>
          pure (coverageOutcome reference ids.length strict json (warnings ++ more) cs)

end Cli

end Phrasebook
