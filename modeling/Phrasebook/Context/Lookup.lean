/-
  Phrasebook.Context.Lookup
  ────────────────────────────────
  **ASKING A CONTEXT.**

  A question is put to the context itself, level 0, or to one of the contexts
  it falls back to, which is built for that if need be.
-/
import Phrasebook.Context.Basic

namespace Phrasebook

namespace Context

/-! ## §1. Levels. -/

/-- Do something with the chain that starts at a level.  There is no answer
if there is no such level. -/
def atLevel {α : Type} (c : Context) (level : Nat) (act : Chain → Errand (Chain × α)) :
    Errand (Context × Option (Except ContextError α)) :=
  match level, c.stage with
  | 0, .collecting _ => pure (c, some (.error .notFrozen))
  | 0, .frozen tier => do
    let (chain, a) ← act ⟨tier, c.below⟩
    pure ({ c with stage := .frozen chain.tier, below := chain.below }, some (.ok a))
  | n + 1, _ => do
    let (below, a) ← Level.atDepth c.around act n c.uris c.below
    pure ({ c with below }, a.map .ok)

/-- What can be told of a context without a lookup. -/
structure Summary where
  isFrozen : Bool
  settings : Settings
  /-- The failures of loads, in the order of registration. -/
  failures : List LoadFailure

/-- What can be told of a tier. -/
def Summary.ofTier (tier : Tier) : Summary :=
  ⟨true, tier.settings, tier.failures⟩

/-- What can be told of the context at a level. -/
def summary (c : Context) (level : Nat) : Errand (Context × Option Summary) := do
  let (next, answer) ← c.atLevel level fun chain => pure (chain, Summary.ofTier chain.tier)
  pure (next, answer.map fun
    | .ok summary => summary
    | .error _ => ⟨false, c.settings, []⟩)

/-- The names that the tier at a level defines, in order. -/
def ids (c : Context) (level : Nat) :
    Errand (Context × Option (Except ContextError (List String))) :=
  c.atLevel level fun chain => pure (chain, chain.tier.publicIds)

/-! ## §2. Lookups. -/

/-- What is asked of an entity. -/
abbrev Question (α : Type) : Type := Environment → Entity → Except EvalError α

namespace Question

variable (data : Bindings)

/-- The text of the value. -/
def text : Question String := fun env e =>
  (e.get env data).map Value.display

/-- An attribute.  Callers do not see local ones. -/
def attributeValue (name : String) : Question Value := fun env e =>
  if isLocalName name then .error (.attributeNotFound e.id name)
  else e.getAttribute env data name

/-- All attributes that callers may see. -/
def attributeValues : Question (List (String × Value)) := fun env e =>
  e.getAttributes env data

/-- The value and all attributes that callers may see. -/
def whole : Question EntityValue := fun env e =>
  e.getEntity env data

end Question

/-- Ask about an entity, at a level. -/
def ask {α : Type} (c : Context) (level : Nat) (id : String) (question : Question α) :
    Errand (Context × Option (Except ContextError α)) := do
  let (next, answer) ← c.atLevel level (Chain.lookup c.around id question)
  pure (next, answer.map fun
    | .error e => .error e
    | .ok (.error e) => .error (.evaluation e)
    | .ok (.ok a) => .ok a)

end Context

end Phrasebook
