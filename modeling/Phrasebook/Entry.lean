/-
  Phrasebook.Entry
  ────────────────────────────────
  **ENTRIES OF A RESOURCE.**

  A resource is a list of entries: entities and macros, which define names;
  imports, which stand for the entries of another resource; comments; and
  junk, the text that a reader had to skip.
-/
import Phrasebook.Expr

namespace Phrasebook

/-- A translatable unit, `<id[index] value attributes>`. -/
structure Entity where
  id : String
  /-- Hidden from callers; a reader sets it for ids that start with `_`. -/
  isLocal : Bool
  /-- The value; an entity may have attributes only. -/
  value : Option Expr
  /-- The path of selectors for the value and for each attribute. -/
  index : List Expr
  /-- The attributes in the order written. -/
  attributes : List (Field Expr)

/-- A parameterised expression, `<id(parameters) { body } attributes>`. -/
structure Macro where
  id : String
  parameters : List String
  body : Expr
  attributes : List (Field Expr)

/-- One entry of a resource. -/
inductive Entry where
  | entity (e : Entity)
  | macroDef (m : Macro)
  /-- The entries of the resource with this reference. -/
  | importing (uri : String)
  /-- A comment, without its delimiters. -/
  | comment (content : String)
  /-- Text that is no entry. -/
  | junk (content : String)

end Phrasebook
