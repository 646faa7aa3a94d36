/-
  Phrasebook.Outline
  ────────────────────────────────
  **OUTLINES OF DEFINITIONS.**

  One line that says what a definition consists of, without its expressions.
  It is meant for logs; texts in it are quoted.
-/
import Phrasebook.Eval.Lookup
import Phrasebook.Text.Visible

namespace Phrasebook

/-! ## §1. Quoted texts. -/

/-- The hexadecimal digits of a number. -/
def hexDigits (n : Nat) : List Char :=
  Nat.toDigits 16 n

/-- A character inside a quoted text; one that would not be seen is shown by
its number. -/
def quotedChar (c : Char) : List Char :=
  if c = '"' then ['\\', '"']
  else if c = '\\' then ['\\', '\\']
  else if c = '\n' then ['\\', 'n']
  else if c = '\r' then ['\\', 'r']
  else if c = '\t' then ['\\', 't']
  else if c.toNat = 0 then ['\\', '0']
  else if isVisible c then [c]
  else ['\\', 'u', '\x7b'] ++ hexDigits c.toNat ++ ['\x7d']

/-- A text between quotes. -/
def quotedText (s : String) : String :=
  "\"" ++ String.ofList (s.toList.flatMap quotedChar) ++ "\""

/-- Quoted texts as a list. -/
def quotedTexts (texts : List String) : String :=
  "[" ++ ", ".intercalate (texts.map quotedText) ++ "]"

/-- A truth value in words. -/
def truthText (b : Bool) : String :=
  if b then "true" else "false"

/-! ## §2. Outlines. -/

/-- The outline of an entity. -/
def Entity.outline (e : Entity) : String :=
  "Entity \x7b id: " ++ quotedText e.id ++ ", local: " ++ truthText e.isLocal
    ++ ", has_value: " ++ truthText e.value.isSome
    ++ ", index_len: " ++ integerText e.index.length
    ++ ", attributes: " ++ quotedTexts (e.attributes.map Field.key) ++ " \x7d"

/-- The outline of a macro. -/
def Macro.outline (m : Macro) : String :=
  "Macro \x7b id: " ++ quotedText m.id ++ ", parameters: " ++ quotedTexts m.parameters
    ++ ", .. \x7d"

end Phrasebook
