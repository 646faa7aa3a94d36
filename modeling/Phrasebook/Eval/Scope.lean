/-
  Phrasebook.Eval.Scope
  ────────────────────────────────
  **WHERE AN EXPRESSION IS EVALUATED.**

      Environment  —  the definitions, the globals, the host's functions
      Frame        —  the parameters of the macro around the expression, and
                      the arguments it was called with
      Scope        —  the four ways to open a reference, each of which goes
                      one level deeper

  A reference to an entity is passed around unopened and rendered only where
  its value is needed: in a placed text, as an operand, as a test or key.
-/
import Phrasebook.Eval.Operator
import Phrasebook.Plural
import Phrasebook.Registry
import Phrasebook.Suggestion

namespace Phrasebook

/-! ## §1. Environments. -/

/-- What the functions of the host program do, by name and stamp. -/
abbrev Host : Type :=
  String → Nat → List Value → Except EvalError Value

/-- What names and globals stand for. -/
structure Environment where
  registry : Registry
  globals : Bindings
  host : Host

/-- The value of a global; an unknown one is absent. -/
def Environment.global (env : Environment) (name : String) : Value :=
  (env.globals.find? name).getD .absent

/-- The entity or macro of a name, unopened. -/
def Environment.reference (env : Environment) (name : String) : Except EvalError Value :=
  match env.registry.find? name with
  | some (.entity e) => .ok (.entity e)
  | some (.macroDef m) => .ok (.macroRef m)
  | none => .error (.entityNotFound name (suggestions name env.registry.ids))

/-! ## §2. Frames. -/

/-- The macro around an expression: its parameters, and what it was given. -/
structure Frame where
  parameters : List String
  locals : Bindings

namespace Frame

/-- Outside of macros. -/
def entity : Frame := ⟨[], []⟩

/-- The frame of a call.  Arguments without a parameter are dropped; of two
parameters with one name the last one counts. -/
def call (parameters : List String) (arguments : List Value) : Frame :=
  ⟨parameters, (parameters.zip arguments).reverse⟩

/-- The value of a variable: an argument of the macro, else what the caller
passed, else nothing. -/
def variableValue (frame : Frame) (data : Bindings) (name : String) : Value :=
  ((frame.locals.find? name).or (data.find? name)).getD .absent

end Frame

/-! ## §3. Scopes. -/

/-- What can be done with references at some depth. -/
structure Scope where
  /-- The value of an entity, with its own index as the path. -/
  value : Entity → Except EvalError Value
  /-- The value of an entity, with one selector as the path. -/
  select : Entity → Value → Except EvalError Value
  /-- An attribute of an entity. -/
  attributeOf : Entity → String → Except EvalError Value
  /-- A call of a macro. -/
  invoke : Macro → List Value → Except EvalError Value

/-- How many levels of references may be open at once, and how many entities
may lead to one another in a row. -/
def maxDepth : Nat := 64

namespace Scope

/-- Follow entities to the value behind them, `n` of them at most. -/
def follow (scope : Scope) : (n : Nat) → Value → Except EvalError Value
  | 0, _ => .error .tooDeep
  | n + 1, .entity e => do
    let v ← scope.value e.it
    follow scope n v
  | _ + 1, v => .ok v

/-- The value behind a reference to an entity; other values are their own. -/
def render (scope : Scope) (v : Value) : Except EvalError Value :=
  scope.follow maxDepth v

/-- The values behind several values; the first error counts. -/
def renderAll (scope : Scope) : List Value → Except EvalError (List Value)
  | [] => .ok []
  | v :: vs => do
    let w ← scope.render v
    let ws ← scope.renderAll vs
    pure (w :: ws)

end Scope

end Phrasebook
