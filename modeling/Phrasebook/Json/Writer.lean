/-
  Phrasebook.Json.Writer
  ────────────────────────────────
  **WRITING JSON.**

  A document is written over several lines, with two blanks more for each
  level; an empty list or object stays on its line.  Members are written in
  the order given.
-/
import Phrasebook.Number.Layout

namespace Phrasebook

namespace Json

/-! ## §1. Texts. -/

/-- Two hexadecimal digits of a character below U+0100. -/
def hexPair (c : Char) : List Char :=
  [Nat.digitChar (c.toNat / 16), Nat.digitChar (c.toNat % 16)]

/-- A character inside of a quoted text.  Quotes, backslashes and control
characters are escaped, the common ones by a letter. -/
def escapeChar (c : Char) : List Char :=
  if c = '"' then ['\\', '"']
  else if c = '\\' then ['\\', '\\']
  else if c = '\n' then ['\\', 'n']
  else if c = '\r' then ['\\', 'r']
  else if c = '\t' then ['\\', 't']
  else if c = '\x08' then ['\\', 'b']
  else if c = '\x0c' then ['\\', 'f']
  else if c.toNat < 32 then ['\\', 'u', '0', '0'] ++ hexPair c
  else [c]

/-- A text in quotes. -/
def quote (text : String) : List Char :=
  '"' :: text.toList.flatMap escapeChar ++ ['"']

/-! ## §2. Documents. -/

/-- A document to be written. -/
inductive Document where
  | text (s : String)
  | natural (n : Nat)
  | list (items : List Document)
  | object (members : List (String × Document))

/-- The start of a line at a level. -/
def newLine (level : Nat) : List Char :=
  '\n' :: List.replicate (2 * level) ' '

mutual
/-- Write a document that starts at a level. -/
def Document.layout (level : Nat) : Document → List Char
  | .text s => quote s
  | .natural n => decimalDigits n
  | .list [] => ['[', ']']
  | .list (d :: ds) =>
    '[' :: newLine (level + 1) ++ d.layout (level + 1)
      ++ Document.layoutItems (level + 1) ds ++ newLine level ++ [']']
  | .object [] => ['{', '}']
  | .object ((key, d) :: ms) =>
    '{' :: newLine (level + 1) ++ quote key ++ [':', ' '] ++ d.layout (level + 1)
      ++ Document.layoutMembers (level + 1) ms ++ newLine level ++ ['}']
termination_by structural d => d

/-- Write the items after the first. -/
def Document.layoutItems (level : Nat) : List Document → List Char
  | [] => []
  | d :: ds => ',' :: newLine level ++ d.layout level ++ Document.layoutItems level ds
termination_by structural ds => ds

/-- Write the members after the first. -/
def Document.layoutMembers (level : Nat) : List (String × Document) → List Char
  | [] => []
  | (key, d) :: ms =>
    ',' :: newLine level ++ quote key ++ [':', ' '] ++ d.layout level
      ++ Document.layoutMembers level ms
termination_by structural ms => ms
end

/-- The text of a document. -/
def Document.write (d : Document) : String :=
  String.ofList (d.layout 0)

end Json

end Phrasebook
