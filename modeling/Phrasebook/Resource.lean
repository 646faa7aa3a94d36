/-
  Phrasebook.Resource
  ────────────────────────────────
  **READING A RESOURCE.**

  Strictly, the first error ends the reading:

      Resource.read source    =  the entries, or the first syntax error

  With recovery, the text of an entry that cannot be read becomes junk, its
  error is noted, and reading goes on at the next `<`:

      Resource.salvage source  =  all entries, and all errors

  Every character of the source is then a blank between entries or part of
  exactly one of them.
-/
import Phrasebook.Entry.Reader
import Phrasebook.Text.Position

namespace Phrasebook

/-! ## §1. Syntax errors. -/

/-- How many characters from the point of an error are shown. -/
def contextLength : Nat := 20

/-- A point where a resource could not be read on. -/
structure SyntaxError where
  expected : Expected
  position : Position
  /-- The first characters from the point of the error. -/
  context : String
  deriving Repr, DecidableEq

namespace SyntaxError

/-- The error of a reader of `source` that stopped in front of `rest`. -/
def locate (source : List Char) (expected : Expected) (rest : List Char) : SyntaxError :=
  { expected
    position := .after (source.take (source.length - rest.length))
    context := String.ofList (rest.take contextLength) }

/-- What is wrong, without the place. -/
def complaint (e : SyntaxError) : String :=
  e.expected.message

/-- What is wrong and where. -/
def message (e : SyntaxError) : String :=
  "syntax error at " ++ toString e.position.line ++ ":" ++ toString e.position.column
    ++ ": " ++ e.complaint

end SyntaxError

namespace Resource

open Phrasebook.Parser

/-! ## §2. Strict reading. -/

/-- Read the next entry and the blanks behind it, unless the text has
ended. -/
def nextEntry : Parser (Option Entry) := do
  let ended ← ahead List.isEmpty
  if ended then
    pure none
  else
    let e ← entry
    blank
    pure (some e)

/-- Read entries with blanks between them, up to the end of the text. -/
def entries : Parser (List Entry) := do
  blank
  collect nextEntry

/-- The entries of a resource, or its first syntax error. -/
def read (source : String) : Except SyntaxError (List Entry) :=
  match entries source.toList with
  | .ok es _ => .ok es
  | .fail expected rest => .error (.locate source.toList expected rest)

/-! ## §3. Reading with recovery. -/

/-- What a reading with recovery gives: the entries, junk included, and one
error per junk entry, both in the order of the source. -/
structure Salvage where
  entries : List Entry
  errors : List SyntaxError

/-- Split the text of an entry that could not be read past `rest` into junk
and the text to go on with.  The junk goes up to the first `<` at or behind
the point of the error, and is at least one character. -/
def splitJunk (start rest : List Char) : List Char × List Char :=
  let skipped := max (start.length - rest.length) 1
  let tail := start.drop skipped
  (start.take skipped ++ tail.takeWhile (· != '<'), tail.dropWhile (· != '<'))

/-- Go on with a reading with recovery; `budget` bounds the entries. -/
def salvageFrom (source : List Char) : (budget start : List Char) → Salvage
  | _, [] => ⟨[], []⟩
  | [], _ :: _ => ⟨[], []⟩
  | _ :: budget, c :: s =>
    match entry (c :: s) with
    | .ok e rest =>
      let later := salvageFrom source budget (dropBlank rest)
      ⟨e :: later.entries, later.errors⟩
    | .fail expected rest =>
      let (junk, resume) := splitJunk (c :: s) rest
      let later := salvageFrom source budget (dropBlank resume)
      ⟨.junk (String.ofList junk) :: later.entries,
        .locate source expected rest :: later.errors⟩

/-- All entries of a resource, with its syntax errors. -/
def salvage (source : String) : Salvage :=
  salvageFrom source.toList source.toList (dropBlank source.toList)

end Resource

end Phrasebook
