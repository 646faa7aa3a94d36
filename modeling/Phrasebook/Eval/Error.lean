/-
  Phrasebook.Eval.Error
  ────────────────────────────────
  **ERRORS OF AN EVALUATION.**

  Every error names its cause; the wording is in `EvalError.message` and
  nowhere else.
-/
import Phrasebook.Value

namespace Phrasebook

/-- Why an expression has no value. -/
inductive EvalError where
  /-- No entity or macro has the name; the suggestions are near it. -/
  | entityNotFound (name : String) (suggestions : List String)
  /-- The entity has no such attribute. -/
  | attributeNotFound (entity key : String)
  /-- The value has no such property. -/
  | propertyNotFound (property : String) (found : Kind)
  /-- An attribute is asked of something that is no entity. -/
  | notAnEntity (found : Kind)
  /-- Something is called that is neither a macro nor a function. -/
  | notCallable (found : Kind)
  /-- The operator does not apply to these operands. -/
  | binaryMismatch (op : BinaryOp) (left right : Kind)
  /-- The operator does not apply to this operand. -/
  | unaryMismatch (op : UnaryOp) (operand : Kind)
  | divisionByZero
  /-- References are nested too deep, as those of a cycle are. -/
  | tooDeep
  deriving Repr, DecidableEq

namespace EvalError

/-- The tail of a message that makes suggestions. -/
def suggestionsText (suggestions : List String) : String :=
  if suggestions.isEmpty then ""
  else "; did you mean: " ++ ", ".intercalate suggestions ++ "?"

/-- A message about operands. -/
def mismatchText (symbol operands : String) : String :=
  "operator '" ++ symbol ++ "' cannot be applied to " ++ operands

/-- The wording of the error. -/
def message : EvalError → String
  | entityNotFound name suggestions =>
    "entity not found: '" ++ name ++ "'" ++ suggestionsText suggestions
  | attributeNotFound entity key =>
    "entity '" ++ entity ++ "' has no attribute '" ++ key ++ "'"
  | propertyNotFound property found => "no property '" ++ property ++ "' on " ++ found.name
  | notAnEntity found => "attribute access requires an entity, found " ++ found.name
  | notCallable found => found.name ++ " is not callable"
  | binaryMismatch op left right =>
    mismatchText op.symbol (left.name ++ " and " ++ right.name)
  | unaryMismatch op operand => mismatchText op.symbol operand.name
  | divisionByZero => "division by zero"
  | tooDeep => "maximum recursion depth exceeded"

end EvalError

end Phrasebook
