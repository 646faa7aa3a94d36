/-
  Phrasebook.Template
  ────────────────────────────────
  **TEMPLATES WITH PLACEHOLDERS.**

  A template is text with placeholders `{{ name }}`.  Filling it in replaces
  the placeholders whose name has a value, in one pass: what is put in is
  not looked at again.  All other placeholders stay as they are written,
  and so does a `{{` without a `}}` behind it.
-/
import Phrasebook.Text.Blank
import Phrasebook.Text.Search

namespace Phrasebook

/-- A piece of a template. -/
inductive Chunk where
  /-- Text that stands for itself. -/
  | plain (text : List Char)
  /-- What stands between `{{` and `}}`. -/
  | placeholder (inner : List Char)
  deriving Repr, DecidableEq

namespace Template

/-- What opens a placeholder. -/
def opening : List Char := ['{', '{']

/-- What closes a placeholder. -/
def closing : List Char := ['}', '}']

/-- The pieces of a template; `budget` bounds their number. -/
def chunksWithin : (budget template : List Char) → List Chunk
  | [], template => [.plain template]
  | _ :: budget, template =>
    match before? opening template with
    | none => [.plain template]
    | some (lead, opened) =>
      let body := opened.drop opening.length
      match before? closing body with
      | none => [.plain template]
      | some (inner, closed) =>
        .plain lead :: .placeholder inner :: chunksWithin budget (closed.drop closing.length)

/-- The pieces of a template. -/
def chunks (template : List Char) : List Chunk :=
  chunksWithin template template

/-- A piece with its placeholder filled in, if its name has a value. -/
def fillChunk (value : List Char → Option (List Char)) : Chunk → List Char
  | .plain text => text
  | .placeholder inner => (value (trimBlank inner)).getD (opening ++ inner ++ closing)

/-- A template with its placeholders filled in. -/
def fill (value : List Char → Option (List Char)) (template : List Char) : List Char :=
  (chunks template).flatMap (fillChunk value)

end Template

end Phrasebook
