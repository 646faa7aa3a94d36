/-
  Phrasebook.Expr
  ────────────────────────────────
  **EXPRESSION TREES.**

  What stands inside an entry: names, numbers, texts with placed
  expressions, arrays and hashes, operators, calls, and the two kinds of
  access (`base.key` for a property, `base..key` for an attribute).

  The tree keeps parentheses and stars exactly as written, so that a tool
  can show a resource the way its author wrote it.
-/
import Phrasebook.Name

namespace Phrasebook

/-! ## §1. Operators. -/

/-- The operators on two computed operands. -/
inductive BinaryOp where
  | add | subtract | multiply | divide | remainder
  | equal | notEqual | less | greater | lessEqual | greaterEqual
  deriving Repr, DecidableEq

/-- How the operator is written. -/
def BinaryOp.symbol : BinaryOp → String
  | .add => "+"
  | .subtract => "-"
  | .multiply => "*"
  | .divide => "/"
  | .remainder => "%"
  | .equal => "=="
  | .notEqual => "!="
  | .less => "<"
  | .greater => ">"
  | .lessEqual => "<="
  | .greaterEqual => ">="

/-- The operators that may leave their right operand alone. -/
inductive LogicalOp where
  | and | or
  deriving Repr, DecidableEq

/-- How the operator is written. -/
def LogicalOp.symbol : LogicalOp → String
  | .and => "&&"
  | .or => "||"

/-- The operators written in front of one operand. -/
inductive UnaryOp where
  | plus | minus | not
  deriving Repr, DecidableEq

/-- How the operator is written. -/
def UnaryOp.symbol : UnaryOp → String
  | .plus => "+"
  | .minus => "-"
  | .not => "!"

/-! ## §2. Keyed items. -/

/-- An item of a hash, or an attribute of an entry: `key: value`.  A star in
front of a hash item makes it the default of its hash. -/
structure Field (α : Type) where
  key : String
  value : α
  starred : Bool
  deriving Repr, DecidableEq, Inhabited

namespace Field

variable {α : Type}

/-- Is the item hidden from callers? -/
def isLocal (f : Field α) : Bool :=
  isLocalName f.key

/-- Put an item into a list of items: in place of the one with its key, else
at the end. -/
def place (f : Field α) : List (Field α) → List (Field α)
  | [] => [f]
  | g :: gs => if g.key = f.key then f :: gs else g :: place f gs

/-- The items that remain of a written list: every key once, where it came
first, with what it was given last. -/
def settle (written : List (Field α)) : List (Field α) :=
  written.foldl (fun kept f => place f kept) []

end Field

/-- The key of an access: a name, or a computed expression in brackets. -/
inductive Accessor (α : Type) where
  /-- The key of `base.name` and `base..name`. -/
  | named (name : String)
  /-- The key of `base[inner]` and `base.[inner]`. -/
  | computed (inner : α)
  deriving Repr, DecidableEq, Inhabited

/-! ## §3. Expressions. -/

/-- An expression as written. -/
inductive Expr where
  /-- A bare name: another entity or macro, or a parameter of the macro. -/
  | name (id : String)
  /-- A variable, `$name`: what the macro or the caller was given. -/
  | var (id : String)
  /-- A global, `@name`. -/
  | global (id : String)
  /-- An integer. -/
  | number (n : Int64)
  /-- A text without placed expressions. -/
  | text (s : String)
  /-- A text with placed expressions, as its parts in order. -/
  | template (parts : List Expr)
  /-- An array, with the position of its default. -/
  | array (elements : List Expr) (default : Option Nat)
  /-- A hash, with the key of its default. -/
  | hash (items : List (Field Expr)) (default : Option String)
  /-- Two operands and an operator. -/
  | binary (op : BinaryOp) (left right : Expr)
  /-- Two operands of which the right one may go unused. -/
  | logical (op : LogicalOp) (left right : Expr)
  /-- An operator in front of its operand. -/
  | unary (op : UnaryOp) (operand : Expr)
  /-- A choice, `test ? consequent : alternate`. -/
  | conditional (test consequent alternate : Expr)
  /-- A call of a macro or a function. -/
  | call (callee : Expr) (arguments : List Expr)
  /-- A property, `base.key`. -/
  | property (base : Expr) (key : Accessor Expr)
  /-- An attribute, `base..key`. -/
  | attribute (base : Expr) (key : Accessor Expr)
  /-- An expression in parentheses. -/
  | paren (inner : Expr)

instance : Inhabited Expr := ⟨.text ""⟩

/-- Attributes are taken of a name, a call or a parenthesis only. -/
def Expr.canHaveAttribute : Expr → Bool
  | .name _ | .call _ _ | .paren _ => true
  | _ => false

end Phrasebook
