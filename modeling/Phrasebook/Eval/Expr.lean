/-
  Phrasebook.Eval.Expr
  ────────────────────────────────
  **THE VALUE OF AN EXPRESSION.**

  `eval` is one structural recursion on the expression.  What lies behind a
  reference is left to the scope, so that the recursion never leaves the
  expression; `Scope.within` then builds the scope of each depth from the
  one below it.

  The path of selectors matters to arrays and hashes only.  It is handed
  down through them and through conditionals, and to nothing else.
-/
import Phrasebook.Eval.Scope
import Phrasebook.Eval.Selection

namespace Phrasebook

/-! ## §1. Calls. -/

/-- The value of a function. -/
def Function.apply (host : Host) : Function → List Value → Except EvalError Value
  | .plural locale, arguments =>
    let category := match arguments with
      | .number n :: _ => pluralCategory locale n.toInt
      | .float x :: _ =>
        match (FloatValue.ofFloat x).integer? with
        | some n => pluralCategory locale (max Int64.minValue.toInt (min n Int64.maxValue.toInt))
        | none => .other
      | _ => .other
    .ok (.text category.name)
  | .host name stamp, arguments => host name stamp arguments

/-- Call a value.  A macro takes its arguments unopened, a function the
values behind them. -/
def callValue (host : Host) (scope : Scope) (callee : Value) (arguments : List Value) :
    Except EvalError Value :=
  match callee with
  | .macroRef m => scope.invoke m.it arguments
  | .function f => do
    let arguments ← scope.renderAll arguments
    f.apply host arguments
  | other => .error (.notCallable other.kind)

/-- The property of a value; of an entity it is the variant that the key
selects. -/
def propertyValue (scope : Scope) (base key : Value) : Except EvalError Value :=
  match base with
  | .entity e => scope.select e.it key
  | other => propertyOf other key

/-! ## §2. Expressions. -/

section

variable (env : Environment) (data : Bindings) (scope : Scope) (frame : Frame)

mutual
/-- The value of an expression, with a path of selectors. -/
def eval (path : List Value) : Expr → Except EvalError Value
  | .name id =>
    if id ∈ frame.parameters then .ok (frame.variableValue data id) else env.reference id
  | .var id => .ok (frame.variableValue data id)
  | .global id => .ok (env.global id)
  | .number n => .ok (.number n)
  | .text s => .ok (.text s)
  | .template parts => do
    let values ← evalRendered parts
    pure (.text (String.join (Value.displays values)))
  | .array elements default => do
    let values ← evalAll path.tail elements
    pure (pickElement path default values)
  | .hash items default => do
    let values ← evalItems path.tail items
    pure (pickItem path default values)
  | .binary op left right => do
    let l ← eval [] left
    let l ← scope.render l
    let r ← eval [] right
    let r ← scope.render r
    op.apply l r
  | .logical op left right => do
    let l ← eval [] left
    let l ← scope.render l
    if op.isDecidedBy l then
      pure l
    else
      let r ← eval [] right
      scope.render r
  | .unary op operand => do
    let v ← eval [] operand
    let v ← scope.render v
    op.apply v
  | .conditional test consequent alternate => do
    let t ← eval [] test
    let t ← scope.render t
    if t.isTruthy then eval path consequent else eval path alternate
  | .call callee arguments => do
    let f ← eval [] callee
    let values ← evalAll [] arguments
    callValue env.host scope f values
  | .property base key => do
    let b ← eval [] base
    let k ← evalKey key
    propertyValue scope b k
  | .attribute base key => do
    let b ← eval [] base
    match b with
    | .entity e => do
      let k ← evalKey key
      scope.attributeOf e.it k.display
    | other => .error (.notAnEntity other.kind)
  | .paren inner => eval path inner
  termination_by structural e => e

/-- The values of several expressions, with one path; the first error
counts. -/
def evalAll (path : List Value) : List Expr → Except EvalError (List Value)
  | [] => .ok []
  | e :: es => do
    let v ← eval path e
    let vs ← evalAll path es
    pure (v :: vs)
  termination_by structural es => es

/-- The values of several expressions, each rendered before the next one is
evaluated. -/
def evalRendered : List Expr → Except EvalError (List Value)
  | [] => .ok []
  | e :: es => do
    let v ← eval [] e
    let v ← scope.render v
    let vs ← evalRendered es
    pure (v :: vs)
  termination_by structural es => es

/-- The values of several items, with one path; the first error counts. -/
def evalItems (path : List Value) : List (Field Expr) → Except EvalError (List (String × Value))
  | [] => .ok []
  | ⟨key, e, _⟩ :: items => do
    let v ← eval path e
    let vs ← evalItems path items
    pure ((key, v) :: vs)
  termination_by structural items => items

/-- The key of an access. -/
def evalKey : Accessor Expr → Except EvalError Value
  | .named name => .ok (.text name)
  | .computed e => do
    let v ← eval [] e
    scope.render v
  termination_by structural key => key
end

end

/-! ## §3. Entities and macros. -/

section

variable (env : Environment) (data : Bindings)

/-- The path that an entity takes from its index. -/
def indexPath (inner : Scope) (e : Entity) : Except EvalError (List Value) :=
  evalRendered env data inner .entity e.index

/-- The value of an entity with a path; an entity may have none. -/
def valueAlong (inner : Scope) (path : List Value) (e : Entity) : Except EvalError Value :=
  match e.value with
  | some v => eval env data inner .entity path v
  | none => .ok .absent

/-- The attribute of an entity with a name. -/
def Entity.attribute? (e : Entity) (name : String) : Option (Field Expr) :=
  e.attributes.find? fun f => f.key == name

/-- The scope above another one; above none nothing can be opened. -/
def Scope.above (inner : Option Scope) : Scope where
  value e :=
    match inner with
    | none => .error .tooDeep
    | some inner => do
      let path ← indexPath env data inner e
      valueAlong env data inner path e
  select e key :=
    match inner with
    | none => .error .tooDeep
    | some inner => valueAlong env data inner [key] e
  attributeOf e name :=
    match e.attribute? name, inner with
    | none, _ => .error (.attributeNotFound e.id name)
    | some _, none => .error .tooDeep
    | some f, some inner => do
      let path ← indexPath env data inner e
      eval env data inner .entity path f.value
  invoke m arguments :=
    match inner with
    | none => .error .tooDeep
    | some inner => eval env data inner (.call m.parameters arguments) [] m.body

/-- The scope where `n` more levels may be opened. -/
def Scope.within : (n : Nat) → Scope
  | 0 => .above env data none
  | n + 1 => .above env data (some (within n))

end

end Phrasebook
