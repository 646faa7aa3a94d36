/-
  Phrasebook.Name
  ────────────────────────────────
  **NAMES OF ENTITIES, MACROS, ATTRIBUTES AND VARIABLES.**

  A name is an ASCII letter or an underscore, followed by ASCII letters,
  digits and underscores.  A name that starts with an underscore is LOCAL:
  other entries of the resource may refer to it, callers may not.
-/

namespace Phrasebook

/-- Can the character start a name? -/
def isNameStart (c : Char) : Bool :=
  c.isAlpha || c == '_'

/-- Can the character stand in a name after the first one? -/
def isNameRest (c : Char) : Bool :=
  c.isAlphanum || c == '_'

/-- Local names start with an underscore and are hidden from callers. -/
def isLocalName (name : String) : Bool :=
  name.toList.head? == some '_'

end Phrasebook
