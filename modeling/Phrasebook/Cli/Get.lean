/-
  Phrasebook.Cli.Get
  ────────────────────────────────
  **THE COMMAND `get`.**

  Renders the value of an entity, or one of its attributes, with the
  parameters given.  A parameter that is an integer is passed as a number,
  every other one as a text.
-/
import Phrasebook.Cli.Source

namespace Phrasebook

namespace Cli

/-! ## §1. What is asked. -/

/-- The value of a parameter. -/
def paramValue (text : String) : Value :=
  match integer? text with
  | some n => .number n
  | none => .text text

/-- The parameters as data; of two with one name the last one counts. -/
def paramData (params : List (String × String)) : Bindings :=
  params.foldl (fun data (name, text) => Bindings.set name (paramValue text) data) []

/-- What has been rendered. -/
structure Rendered where
  value : String
  /-- The attributes that callers may see, if they are asked for. -/
  attributes : List (String × String)
  deriving Repr, DecidableEq

/-- Render one attribute. -/
def renderAttribute (name : String) (data : Bindings) : Context.Question Rendered :=
  fun env e => do
    let value ← Context.Question.attributeValue data name env e
    pure ⟨value.display, []⟩

/-- Render the value. -/
def renderValue (data : Bindings) : Context.Question Rendered := fun env e => do
  let value ← Context.Question.text data env e
  pure ⟨value, []⟩

/-- Render the value and all attributes that callers may see. -/
def renderWhole (data : Bindings) : Context.Question Rendered := fun env e => do
  let value ← Context.Question.text data env e
  let attributes ← Context.Question.attributeValues data env e
  pure ⟨value, attributes.map fun (name, v) => (name, v.display)⟩

/-- What is asked of the entity. -/
def question (params : List (String × String)) (attributeName : Option String) (json : Bool) :
    Context.Question Rendered :=
  match attributeName with
  | some name => renderAttribute name (paramData params)
  | none => if json then renderWhole (paramData params) else renderValue (paramData params)

/-! ## §2. The command. -/

/-- What has been rendered, as a document. -/
def Rendered.document (r : Rendered) (id : String) : Json.Document :=
  .object
    [("id", .text id), ("value", .text r.value),
     ("attributes", .list (r.attributes.map fun (name, value) =>
      .object [("name", .text name), ("value", .text value)]))]

/-- What comes of the answer. -/
def getOutcome (id : String) (json : Bool) (warnings : List Complaint) :
    Option (Except ContextError Rendered) → Outcome
  | none => ⟨success, [], warnings⟩
  | some (.ok r) => ⟨success, [if json then (r.document id).write else r.value], warnings⟩
  | some (.error e) =>
    let text :=
      if json then (Json.Document.object [("error", .text e.message)]).write
      else Colour.red.paint "error:" ++ " " ++ e.message
    ⟨dataFault, [], warnings ++ [.line text]⟩

/-- Render an entity. -/
def runGet (importDepth : Nat) (id : String) (sources : Sources)
    (params : List (String × String)) (attributeName : Option String) (json : Bool) :
    Errand Outcome := do
  match ← sources.settings with
  | .error e => pure (.fatal [] [] e)
  | .ok settings => do
    match ← sources.context importDepth settings with
    | .error e => pure (.fatal [] [] (.context e))
    | .ok c => do
      let warnings := (loadFailures c).map fun failure => warning failure.message
      let (_, answer) ← c.ask 0 id (question params attributeName json)
      pure (getOutcome id json warnings answer)

end Cli

end Phrasebook
