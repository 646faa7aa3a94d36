/-
  Phrasebook.Registry
  ────────────────────────────────
  **THE REGISTRY OF DEFINITIONS.**

  Every name has at most one definition.  Entities and macros share one name
  space, and a later definition of a name replaces the earlier one:

      find?_define  —  a name just defined has that definition, every other
                       name the one it had
-/
import Phrasebook.Definition
import Phrasebook.Text.Sorted

namespace Phrasebook

/-! ## §1. Definitions by name. -/

/-- Names with their definitions, each name once. -/
structure Registry where
  definitions : List (String × Definition)
  /-- The stamp of the next definition. -/
  nextStamp : Nat

namespace Registry

/-- No definitions. -/
def empty : Registry := ⟨[], 0⟩

/-- The definition that a list gives a name. -/
def lookup (id : String) : List (String × Definition) → Option Definition
  | [] => none
  | (k, d) :: ds => if k = id then some d else lookup id ds

/-- A list with a definition in place of the one that its name had. -/
def replace (id : String) (d : Definition) :
    List (String × Definition) → List (String × Definition)
  | [] => [(id, d)]
  | (k, e) :: ds => if k = id then (id, d) :: ds else (k, e) :: replace id d ds

/-- The definition of a name. -/
def find? (r : Registry) (id : String) : Option Definition :=
  lookup id r.definitions

/-- The entity with a name. -/
def findEntity? (r : Registry) (id : String) : Option (Stamped Entity) :=
  match r.find? id with
  | some (.entity e) => some e
  | _ => none

/-- The macro with a name. -/
def findMacro? (r : Registry) (id : String) : Option (Stamped Macro) :=
  match r.find? id with
  | some (.macroDef m) => some m
  | _ => none

/-- All names. -/
def ids (r : Registry) : List String :=
  r.definitions.map Prod.fst

/-- The names of the entities that callers may ask for, in order. -/
def publicIds (r : Registry) : List String :=
  sortTexts (r.definitions.filterMap fun
    | (id, .entity e) => if e.it.isLocal then none else some id
    | (_, .macroDef _) => none)

/-! ## §2. Defining names. -/

/-- Define a name; `make` takes the stamp of the definition. -/
def define (r : Registry) (id : String) (make : Nat → Definition) : Registry :=
  ⟨replace id (make r.nextStamp) r.definitions, r.nextStamp + 1⟩

theorem lookup_replace (id other : String) (d : Definition)
    (ds : List (String × Definition)) :
    lookup other (replace id d ds) = if other = id then some d else lookup other ds := by
  induction ds with
  | nil => simp only [replace, lookup, eq_comm]
  | cons head ds ih =>
    obtain ⟨k, e⟩ := head
    by_cases hk : k = id
    · subst hk
      by_cases ho : other = k
      · simp [replace, lookup, ho]
      · simp [replace, lookup, ho, Ne.symm ho]
    · by_cases ho : k = other
      · subst ho
        simp [replace, lookup, hk]
      · simp [replace, lookup, hk, ho, ih]

theorem find?_define (r : Registry) (id other : String) (make : Nat → Definition) :
    (r.define id make).find? other
      = if other = id then some (make r.nextStamp) else r.find? other := by
  simp [find?, define, lookup_replace]

/-- Define what an entry defines; other entries than entities and macros
define nothing. -/
def addEntry (r : Registry) : Entry → Except DefinitionError Registry
  | .entity e => e.check.map fun e => r.define e.id fun stamp => .entity ⟨stamp, e⟩
  | .macroDef m => m.check.map fun m => r.define m.id fun stamp => .macroDef ⟨stamp, m⟩
  | .importing _ | .comment _ | .junk _ => .ok r

end Registry

/-- Does the entry define a name? -/
def Entry.isDefinition : Entry → Bool
  | .entity _ | .macroDef _ => true
  | .importing _ | .comment _ | .junk _ => false

/-- The number of definitions among the entries. -/
def Entry.countDefinitions (entries : List Entry) : Nat :=
  entries.countP Entry.isDefinition

namespace Registry

/-- Define what the entries define, up to the first that fails its check, and
count on from `count` how many names have been defined.  What was defined
before an error stays defined. -/
def compileFrom (count : Nat) (r : Registry) :
    List Entry → Registry × Except DefinitionError Nat
  | [] => (r, .ok count)
  | entry :: entries =>
    match r.addEntry entry with
    | .ok r => r.compileFrom (if entry.isDefinition then count + 1 else count) entries
    | .error e => (r, .error e)

/-- Define what the entries define; the registry, and how many names have
been defined. -/
def compile (r : Registry) (entries : List Entry) : Registry × Except DefinitionError Nat :=
  r.compileFrom 0 entries

/-- Define what the entries define; the registry, and the error if there is
one. -/
def addEntries (r : Registry) (entries : List Entry) : Registry × Option DefinitionError :=
  match r.compile entries with
  | (r, .ok _) => (r, none)
  | (r, .error e) => (r, some e)

end Registry

end Phrasebook
