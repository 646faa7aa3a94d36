/-
  Phrasebook.Parser.Expected
  ────────────────────────────────
  **WHAT A READER MISSED.**

  A reader that cannot go on names the one thing that had to stand where it
  stopped.  The wording is in `Expected.message` and nowhere else.
-/

namespace Phrasebook

/-- The lists of the grammar whose items are separated by commas. -/
inductive Enumeration where
  | array | hash | callArguments | parameters | index
  deriving Repr, DecidableEq

namespace Enumeration

/-- What ends the list. -/
def close : Enumeration → String
  | .array | .index => "]"
  | .hash => "\x7d"
  | .callArguments | .parameters => ")"

/-- What the list is called. -/
def describe : Enumeration → String
  | .array => "array"
  | .hash => "hash"
  | .callArguments => "call arguments"
  | .parameters => "parameter list"
  | .index => "index"

end Enumeration

/-- What had to stand where a reader stopped. -/
inductive Expected where
  /-- Exactly this text. -/
  | exactly (text : String)
  /-- A name. -/
  | name
  /-- An entry of a resource. -/
  | entry
  /-- An entry nested no deeper than the limit. -/
  | shallowerNesting
  /-- A text, an array or a hash. -/
  | literal
  /-- Something after a backslash. -/
  | escapedCharacter
  /-- The end of a text. -/
  | closingQuote
  /-- A comma, or the end of the list. -/
  | separator (list : Enumeration)
  /-- An expression that can have attributes, in front of `..` or `.[`. -/
  | attributeBase
  /-- A blank between the id of an entity and what follows. -/
  | blankAfterId
  /-- A blank or a comma between two attributes. -/
  | blankBetweenAttributes
  /-- The name of a macro, which is never local. -/
  | publicMacroName
  /-- An integer of at most 63 bits. -/
  | smallerNumber
  /-- A round of a loop that reads something; no reader stops here. -/
  | progress
  deriving Repr, DecidableEq

namespace Expected

/-- Said of a thing that is not an exact text. -/
def describe : Expected → String
  | .exactly text => text
  | .name => "identifier"
  | .entry => "an entity, macro, comment or import"
  | .shallowerNesting => "shallower nesting"
  | .literal => "a string, array or hash"
  | .escapedCharacter => "an escaped character"
  | .closingQuote => "closing quote"
  | .separator list => "',' or '" ++ list.close ++ "' in " ++ list.describe
  | .attributeBase => "an entity reference before attribute access"
  | .blankAfterId => "whitespace after entity id"
  | .blankBetweenAttributes => "whitespace between attributes"
  | .publicMacroName => "a non-local macro name"
  | .smallerNumber => "a smaller number"
  | .progress => "progress"

/-- The wording of the complaint: an exact text stands between grave accents,
and a number that is too large has a complaint of its own. -/
def message : Expected → String
  | .exactly text => "expected `" ++ text ++ "`"
  | .smallerNumber => "number too large to fit in target type"
  | other => "expected " ++ other.describe

end Expected

end Phrasebook
