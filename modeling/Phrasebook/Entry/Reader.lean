/-
  Phrasebook.Entry.Reader
  ────────────────────────────────
  **READING ENTRIES.**

      <id[index] value attributes>        an entity
      <id(parameters) { body } attributes>  a macro
      import("uri")
      /* comment */

  An entity has a value, attributes, or both; blanks separate its id from
  them, and blanks or a comma one attribute from the next.
-/
import Phrasebook.Entry
import Phrasebook.Expr.Level

namespace Phrasebook

open Phrasebook.Parser

/-! ## §1. Attributes. -/

/-- Read the attributes up to the closing `>`. -/
def attributeList : Parser (List (Field Expr)) := do
  let written ← collect do
    let closed ← eat ">"
    if closed then
      pure none
    else
      let item ← field outermost false
      let spaced ← someBlank
      let comma ← eat ","
      blank
      let closes ← isAhead ">"
      if spaced || comma || closes then
        pure (some item)
      else
        stop .blankBetweenAttributes
  pure (Field.settle written)

/-! ## §2. Entities and macros. -/

/-- Read the value of an entity, if it has one. -/
def entityValue : Parser (Option Expr) := do
  let present ← literalAhead
  if present then some <$> outermost.literal else pure none

/-- Read an entity after its id and index. -/
def entityBody (id : String) (index : List Expr) : Parser Entity := do
  let closed ← eat ">"
  if closed then
    pure ⟨id, isLocalName id, none, index, []⟩
  else
    let spaced ← someBlank
    if spaced then
      let value ← entityValue
      blank
      let attributes ← attributeList
      pure ⟨id, isLocalName id, value, index, attributes⟩
    else
      stop .blankAfterId

/-- Read an entity after its id. -/
def entityRest (id : String) : Parser Entity := do
  let indexed ← eat "["
  let index ← if indexed then tightList .index outermost.expression else pure []
  entityBody id index

/-- Read a parameter; a `$` in front of it says nothing. -/
def parameter : Parser String := do
  let _ ← eat "$"
  name

/-- Read a macro after its id. -/
def macroRest (id : String) : Parser Macro :=
  if isLocalName id then
    stop .publicMacroName
  else do
    exactly "("
    let parameters ← tightList .parameters parameter
    blank
    exactly "\x7b"
    blank
    let body ← outermost.expression
    blank
    exactly "\x7d"
    blank
    let attributes ← attributeList
    pure ⟨id, parameters, body, attributes⟩

/-- Read an entity or a macro. -/
def tagged : Parser Entry := do
  exactly "<"
  let id ← name
  let isMacro ← isAhead "("
  if isMacro then .macroDef <$> macroRest id else .entity <$> entityRest id

/-! ## §3. Imports and comments. -/

/-- Read a reference between quotes, as it stands. -/
def reference : Parser String := do
  let singleQuote ← isAhead "'"
  if singleQuote then between "'" '\'' else between "\"" '"'
where
  /-- Read the characters between two quotes. -/
  between (quote : String) (mark : Char) : Parser String := do
    exactly quote
    let content ← takeWhile (· != mark)
    exactly quote
    pure (String.ofList content)

/-- Read an import. -/
def importStatement : Parser Entry := do
  exactly "import"
  blank
  exactly "("
  blank
  let uri ← reference
  blank
  exactly ")"
  pure (.importing uri)

/-- Read a comment. -/
def comment : Parser Entry := do
  exactly "/*"
  let content ← upTo "*/"
  exactly "*/"
  pure (.comment (String.ofList content))

/-! ## §4. Any entry. -/

/-- Read an entry. -/
def entry : Parser Entry := do
  let isTagged ← isAhead "<"
  let isComment ← isAhead "/*"
  let isImport ← isAhead "import"
  if isTagged then tagged
  else if isComment then comment
  else if isImport then importStatement
  else stop .entry

end Phrasebook
