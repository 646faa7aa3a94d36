/-
  Phrasebook.Expr.Literal
  ────────────────────────────────
  **TEXTS, ARRAYS AND HASHES.**

      "text"  'text'          —  escapes with `\`, expressions in `{{ }}`
      """text"""  '''text'''  —  neither
      [value, *value]         —  an array; the star marks its default
      {key: value, *key: value}

  A literal is nested in another one, or in an expression, through the
  readers of `Nested`, which are those of the next nesting level.
-/
import Phrasebook.Expr
import Phrasebook.Parser.Token

namespace Phrasebook

open Phrasebook.Parser

/-! ## §1. The next nesting level. -/

/-- The readers that open one more nesting level. -/
structure Nested where
  /-- Any expression. -/
  expression : Parser Expr
  /-- What a prefix operator is applied to. -/
  operand : Parser Expr
  /-- A text, an array or a hash. -/
  literal : Parser Expr

/-! ## §2. Texts. -/

/-- What is read in one step inside a quoted text. -/
inductive Piece where
  /-- Characters that stand for themselves. -/
  | chars (cs : List Char)
  /-- A placed expression. -/
  | placed (e : Expr)

/-- Read one piece of a quoted text; there is none at its closing quote. -/
def piece (inner : Nested) (quote : String) : Parser (Option Piece) := do
  let closed ← eat quote
  if closed then
    pure none
  else
    let escape ← eat "\\"
    if escape then
      let braces ← eat "\x7b\x7b"
      if braces then pure (some (.chars ['{', '{'])) else single .escapedCharacter
    else
      let placed ← eat "\x7b\x7b"
      if placed then
        blank
        let e ← inner.expression
        blank
        exactly "\x7d\x7d"
        pure (some (.placed e))
      else
        single .closingQuote
where
  /-- Read one character, whatever it is. -/
  single (missed : Expected) : Parser (Option Piece)
    | [] => .fail missed []
    | c :: r => .ok (some (.chars [c])) r

/-- The parts of a text: runs of characters become one part each, and an
empty run none. -/
def Piece.parts (pieces : List Piece) : List Expr :=
  let (lead, others) := split pieces
  flush lead others
where
  /-- The characters in front of the first placed expression, and the parts
  from there on. -/
  split : List Piece → List Char × List Expr
    | [] => ([], [])
    | .chars cs :: ps => let (lead, others) := split ps; (cs ++ lead, others)
    | .placed e :: ps => let (lead, others) := split ps; ([], e :: flush lead others)
  /-- The run as a part of its own, unless it is empty. -/
  flush (run : List Char) (others : List Expr) : List Expr :=
    if run.isEmpty then others else .text (String.ofList run) :: others

/-- The expression for the parts of a text: a text without placed
expressions is plain. -/
def Expr.ofParts : List Expr → Expr
  | [] => .text ""
  | [.text s] => .text s
  | parts => .template parts

/-- Read a text between quotes. -/
def quoted (inner : Nested) (quote : String) : Parser Expr := do
  exactly quote
  let pieces ← collect (piece inner quote)
  pure (Expr.ofParts (Piece.parts pieces))

/-- Read a text between triple quotes, as it stands. -/
def verbatim (quote : String) : Parser Expr := do
  exactly quote
  let content ← upTo quote
  exactly quote
  pure (.text (String.ofList content))

/-- Read a text in any of its four forms. -/
def textLiteral (inner : Nested) : Parser Expr := do
  let triple ← isAhead "\"\"\""
  let tripleSingle ← isAhead "'''"
  let singleQuote ← isAhead "'"
  if triple then verbatim "\"\"\""
  else if tripleSingle then verbatim "'''"
  else if singleQuote then quoted inner "'"
  else quoted inner "\""

/-! ## §3. Arrays and hashes. -/

/-- The position of the last starred element. -/
def lastStarred (written : List (Bool × Expr)) : Option Nat :=
  (written.zipIdx.filter fun (w, _) => w.1).getLast?.map fun (_, i) => i

/-- The key of the last starred item. -/
def starredKey (items : List (Field Expr)) : Option String :=
  (items.filter Field.starred).getLast?.map Field.key

/-- The array with the elements written. -/
def Expr.ofElements (written : List (Bool × Expr)) : Expr :=
  .array (written.map Prod.snd) (lastStarred written)

/-- The hash with the items written. -/
def Expr.ofItems (written : List (Field Expr)) : Expr :=
  .hash (Field.settle written) (starredKey (Field.settle written))

/-- Read an element of an array with its star. -/
def element (inner : Nested) : Parser (Bool × Expr) := do
  let starred ← eat "*"
  let value ← inner.literal
  pure (starred, value)

/-- Read `key: value`. -/
def field (inner : Nested) (starred : Bool) : Parser (Field Expr) := do
  let key ← name
  blank
  exactly ":"
  blank
  let value ← inner.literal
  pure ⟨key, value, starred⟩

/-- Read an item of a hash with its star. -/
def hashItem (inner : Nested) : Parser (Field Expr) := do
  let starred ← eat "*"
  field inner starred

/-- Read an array. -/
def arrayLiteral (inner : Nested) : Parser Expr := do
  exactly "["
  let written ← looseList .array (element inner)
  pure (Expr.ofElements written)

/-- Read a hash. -/
def hashLiteral (inner : Nested) : Parser Expr := do
  exactly "\x7b"
  let written ← looseList .hash (hashItem inner)
  pure (Expr.ofItems written)

/-! ## §4. Literals. -/

/-- Can a literal start with the character? -/
def startsLiteral (c : Char) : Bool :=
  c == '"' || c == '\'' || c == '[' || c == '\x7b'

/-- Is a literal ahead? -/
def literalAhead : Parser Bool :=
  ahead fun s => (s.head?.map startsLiteral).getD false

/-- Read a text, an array or a hash, inside the level it has opened. -/
def literal (inner : Nested) : Parser Expr := do
  let text ← ahead fun s => s.head? == some '"' || s.head? == some '\''
  let array ← isAhead "["
  let hash ← isAhead "\x7b"
  if text then textLiteral inner
  else if array then arrayLiteral inner
  else if hash then hashLiteral inner
  else stop .literal

end Phrasebook
