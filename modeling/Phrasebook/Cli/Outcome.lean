/-
  Phrasebook.Cli.Outcome
  ────────────────────────────────
  **WHAT COMES OF A COMMAND.**

  A command ends with an exit code, lines on standard output, and complaints
  on standard error.  A complaint is a line, or the report of a syntax error.
-/
import Phrasebook.Context.Basic
import Phrasebook.Json.Writer

namespace Phrasebook

namespace Cli

/-! ## §1. Colours. -/

/-- The colours of the output. -/
inductive Colour where
  | red
  | green
  | yellow
  deriving Repr, DecidableEq

/-- The number that a terminal knows a colour by. -/
def Colour.code : Colour → Nat
  | .red => 31
  | .green => 32
  | .yellow => 33

/-- A text in a colour, on a terminal; the colour is the usual one again
behind it. -/
def Colour.paint (c : Colour) (text : String) : String :=
  "\x1b[" ++ integerText c.code ++ "m" ++ text ++ "\x1b[39m"

/-! ## §2. Reports. -/

/-- Some bytes of a text, one after the other. -/
structure Span where
  /-- The number of bytes in front of them. -/
  offset : Nat
  length : Nat
  deriving Repr, DecidableEq

/-- The report of a syntax error in a file. -/
structure Report where
  file : String
  /-- The text of the file. -/
  text : String
  /-- What is pointed at. -/
  span : Span
  complaint : String
  help : Option String
  deriving Repr, DecidableEq

namespace Report

/-- The report of an error in a file with this text.  It points at one byte,
also where the text has none: an error at the end comes with help. -/
def ofError (file text : String) (e : SyntaxError) : Report :=
  let offset := e.position.offset text.toList
  { file, text
    span := ⟨offset, 1⟩
    complaint := e.complaint
    help := if offset = byteLength text.toList then some "the resource ended early" else none }

/-- What is reported. -/
def message (r : Report) : String :=
  "syntax error: " ++ r.complaint

/-- The line and the column where the span starts. -/
def position (r : Report) : Position :=
  .ofOffset r.span.offset r.text.toList

/-- Where the error is. -/
def place (r : Report) : String :=
  r.file ++ ":" ++ integerText r.position.line ++ ":" ++ integerText r.position.column

end Report

/-! ## §3. Outcomes. -/

/-- Something on standard error. -/
inductive Complaint where
  | line (text : String)
  | report (r : Report)
  deriving Repr, DecidableEq

/-- The text of a complaint. -/
def Complaint.text : Complaint → String
  | .line text => text
  | .report r =>
    let help := match r.help with
      | some help => " (" ++ help ++ ")"
      | none => ""
    r.place ++ ": " ++ r.message ++ help

/-- What comes of a command. -/
structure Outcome where
  code : Nat
  /-- The lines on standard output. -/
  output : List String
  /-- What is on standard error. -/
  complaints : List Complaint
  deriving Repr, DecidableEq

/-- Everything was in order. -/
def success : Nat := 0

/-- The command line was wrong. -/
def usageFault : Nat := 2

/-- The command did its work, and found faults in what it was given. -/
def dataFault : Nat := 65

/-- The command could not do its work. -/
def fatalFault : Nat := 70

/-- Why a command cannot do its work. -/
inductive Fatal where
  | unreadableFile (file : String) (e : ReadError)
  | unreadableConfig (file : String) (e : ReadError)
  | invalidConfig (file : String)
  | context (e : ContextError)
  | noLocale
  deriving Repr, DecidableEq

/-- The wording of the error. -/
def Fatal.message : Fatal → String
  | unreadableFile file _ => "Cannot read " ++ file
  | unreadableConfig file _ => "Cannot read config file " ++ file
  | invalidConfig file => "Invalid config file " ++ file
  | context e => e.message
  | noLocale => "At least one locale is required"

/-- An outcome with a fatal error at its end. -/
def Outcome.fatal (output : List String) (complaints : List Complaint) (e : Fatal) : Outcome :=
  ⟨fatalFault, output, complaints ++ [.line (Colour.red.paint "error:" ++ " " ++ e.message)]⟩

end Cli

end Phrasebook
