/-
  Phrasebook.Cli.Command
  ────────────────────────────────
  **COMMANDS.**

      check FILES…            —  are these resources well written?
      get ID --resource …     —  what is the text of an entity?
      coverage --resource …   —  which entities does each locale lack?

  The options `--color` and `--verbose` may stand before and behind the name
  of the command.
-/
import Phrasebook.Cli.Option

namespace Phrasebook

namespace Cli

/-! ## §1. Commands. -/

/-- Where resources are, and for which locales. -/
structure Sources where
  resources : List String
  /-- The locales, if any are given; they win over the configuration. -/
  locales : List String
  /-- The schemes, if any are given; they win over the configuration. -/
  schemes : List String
  /-- A file with settings. -/
  config : Option String
  root : String
  deriving Repr, DecidableEq

/-- A command with its arguments. -/
inductive Command where
  | check (files : List String) (json : Bool)
  | get (id : String) (sources : Sources) (params : List (String × String))
      (attributeName : Option String) (json : Bool)
  | coverage (sources : Sources) (strict json : Bool)
  deriving Repr, DecidableEq

/-! ## §2. Options. -/

/-- Any text. -/
def anyText (_ : String) : Bool := true

/-- Any text that can be a path. -/
def pathText (text : String) : Bool := text != ""

/-- A name and a value with an equals sign between them. -/
def paramText (text : String) : Bool := text.toList.contains '='

/-- When to use colours. -/
def colorText (text : String) : Bool := ["auto", "always", "never"].contains text

def helpOption : OptionSpec := ⟨"help", some 'h', .page .help, anyText⟩
def versionOption : OptionSpec := ⟨"version", some 'V', .page .version, anyText⟩

/-- The options of every command. -/
def sharedOptions : List OptionSpec :=
  [⟨"color", none, .single, colorText⟩, ⟨"verbose", some 'v', .flag, anyText⟩, helpOption]

def jsonOption : OptionSpec := ⟨"json", none, .flag, anyText⟩

/-- The options that say where resources are. -/
def sourceOptions : List OptionSpec :=
  [⟨"resource", none, .repeatable, anyText⟩, ⟨"locale", none, .repeatable, anyText⟩,
   ⟨"scheme", none, .repeatable, anyText⟩, ⟨"config", none, .single, pathText⟩,
   ⟨"root", none, .single, pathText⟩]

/-- No operands. -/
def noOperands : OperandSpec := ⟨some 0, anyText⟩

/-! ## §3. Reading a command. -/

/-- The sources that are given. -/
def readSources (g : Given) : Except Stop Sources :=
  match g.values "resource" with
  | [] => .error (.usage (.missing "--resource"))
  | resources => .ok
    { resources
      locales := g.values "locale"
      schemes := g.values "scheme"
      config := g.value? "config"
      root := (g.value? "root").getD "." }

/-- A parameter, split at its first equals sign. -/
def param (text : String) : String × String :=
  let (name, value) := splitValue text.toList
  (name, value.getD "")

/-- Read the arguments of `check`. -/
def readCheck (args : List String) : Except Stop Command := do
  let (g, _) ← Grammar.read ⟨jsonOption :: sharedOptions, ⟨none, pathText⟩, false⟩ args
  if g.operands.isEmpty then .error (.usage (.missing "FILES"))
  else pure (.check g.operands (g.has "json"))

/-- Read the arguments of `get`. -/
def readGet (args : List String) : Except Stop Command := do
  let options := ⟨"param", some 'p', .repeatable, paramText⟩
    :: ⟨"attribute", none, .single, anyText⟩ :: jsonOption :: sourceOptions ++ sharedOptions
  let (g, _) ← Grammar.read ⟨options, ⟨some 1, anyText⟩, false⟩ args
  match g.operands with
  | [] => .error (.usage (.missing "ID"))
  | id :: _ =>
    let sources ← readSources g
    let params := (g.values "param").map param
    pure (.get id sources params (g.value? "attribute") (g.has "json"))

/-- Read the arguments of `coverage`. -/
def readCoverage (args : List String) : Except Stop Command := do
  let options := ⟨"strict", none, .flag, anyText⟩ :: jsonOption :: sourceOptions ++ sharedOptions
  let (g, _) ← Grammar.read ⟨options, noOperands, false⟩ args
  let sources ← readSources g
  pure (.coverage sources (g.has "strict") (g.has "json"))

/-- Read what follows `help`: at most the name of a command. -/
def readHelp : List String → Except Stop Command
  | [] => .error (.page .help)
  | [name] =>
    if ["check", "get", "coverage", "help"].contains name then .error (.page .help)
    else .error (.usage (.unexpected name))
  | _ :: arg :: _ => .error (.usage (.unexpected arg))

/-- Read a command line. -/
def readCommand (args : List String) : Except Stop Command := do
  let (_, rest) ← Grammar.read ⟨versionOption :: sharedOptions, noOperands, true⟩ args
  match rest with
  | [] => .error (.usage (.missing "COMMAND"))
  | name :: args =>
    if name = "check" then readCheck args
    else if name = "get" then readGet args
    else if name = "coverage" then readCoverage args
    else if name = "help" then readHelp args
    else .error (.usage (.unexpected name))

end Cli

end Phrasebook
