/-
  Phrasebook.Eval.Lookup
  ────────────────────────────────
  **LOOKING ENTITIES UP.**

  What a caller may ask of an entity: its value, one attribute, all public
  attributes, or both; and a macro may be called.  The answer is rendered:
  it is never a reference to an entity.
-/
import Phrasebook.Eval.Expr

namespace Phrasebook

/-! ## §1. Entities. -/

/-- The value of an entity with its public attributes. -/
structure EntityValue where
  value : Value
  /-- The attributes in the order written. -/
  attributes : List (String × Value)

namespace Entity

/-- The attributes that callers may see, in the order written. -/
def publicAttributes (e : Entity) : List (Field Expr) :=
  e.attributes.filter fun f => !f.isLocal

/-- The names of the attributes that callers may see. -/
def attributeNames (e : Entity) : List String :=
  e.publicAttributes.map Field.key

/-- Is there such an attribute, local or not? -/
def hasAttribute (e : Entity) (name : String) : Bool :=
  (e.attribute? name).isSome

variable (env : Environment) (data : Bindings)

/-- The value of an entity. -/
def get (e : Entity) : Except EvalError Value := do
  let outer := Scope.within env data maxDepth
  let v ← outer.value e
  outer.render v

/-- An attribute of an entity, local or not. -/
def getAttribute (e : Entity) (name : String) : Except EvalError Value := do
  let outer := Scope.within env data maxDepth
  let v ← outer.attributeOf e name
  outer.render v

/-- The values of attributes, with one path; each is rendered before the next
one is evaluated. -/
def attributeValues (inner : Scope) (path : List Value) :
    List (Field Expr) → Except EvalError (List (String × Value))
  | [] => .ok []
  | f :: fs => do
    let v ← eval env data inner .entity path f.value
    let v ← inner.render v
    let vs ← attributeValues inner path fs
    pure ((f.key, v) :: vs)

/-- All attributes that callers may see. -/
def getAttributes (e : Entity) : Except EvalError (List (String × Value)) := do
  let inner := Scope.within env data (maxDepth - 1)
  let path ← indexPath env data inner e
  attributeValues env data inner path e.publicAttributes

/-- The value and all attributes that callers may see. -/
def getEntity (e : Entity) : Except EvalError EntityValue := do
  let value ← e.get env data
  let attributes ← e.getAttributes env data
  pure ⟨value, attributes⟩

end Entity

/-! ## §2. Macros. -/

/-- The value of a call of a macro. -/
def Macro.call (m : Macro) (env : Environment) (data : Bindings) (arguments : List Value) :
    Except EvalError Value := do
  let outer := Scope.within env data maxDepth
  let v ← outer.invoke m arguments
  outer.render v

end Phrasebook
