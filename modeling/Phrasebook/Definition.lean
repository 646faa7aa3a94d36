/-
  Phrasebook.Definition
  ────────────────────────────────
  **DEFINITIONS.**

  An entity or a macro becomes a definition once it has been checked.  The
  readers of this library only give entries that pass; the check is for trees
  built by hand:

      attributes are taken of a name, a call or a parenthesis only
      the name of a macro is not local

  A definition carries a stamp, which tells it from any other definition of
  the same name.
-/
import Phrasebook.Entry

namespace Phrasebook

/-! ## §1. The check. -/

mutual
/-- Does every attribute access have a base that can have attributes? -/
def Expr.isSound : Expr → Bool
  | .name _ | .var _ | .global _ | .number _ | .text _ => true
  | .template parts => Expr.areSound parts
  | .array elements _ => Expr.areSound elements
  | .hash items _ => Expr.areItemsSound items
  | .binary _ l r => l.isSound && r.isSound
  | .logical _ l r => l.isSound && r.isSound
  | .unary _ e => e.isSound
  | .conditional t c a => t.isSound && c.isSound && a.isSound
  | .call f args => f.isSound && Expr.areSound args
  | .property b k => b.isSound && Expr.isKeySound k
  | .attribute b k => b.canHaveAttribute && b.isSound && Expr.isKeySound k
  | .paren e => e.isSound

/-- The check of each of several expressions. -/
def Expr.areSound : List Expr → Bool
  | [] => true
  | e :: es => e.isSound && Expr.areSound es

/-- The check of the value of each item. -/
def Expr.areItemsSound : List (Field Expr) → Bool
  | [] => true
  | ⟨_, e, _⟩ :: fs => e.isSound && Expr.areItemsSound fs

/-- The check of a key. -/
def Expr.isKeySound : Accessor Expr → Bool
  | .named _ => true
  | .computed e => e.isSound
end

/-- Why an entry cannot become a definition. -/
inductive DefinitionError where
  /-- An attribute is taken of something that has none. -/
  | attributeBase (id : String)
  /-- The name of a macro is local. -/
  | localMacro (id : String)
  deriving Repr, DecidableEq

/-- The wording of the error. -/
def DefinitionError.message : DefinitionError → String
  | .attributeBase id =>
    "attribute access in '" ++ id ++ "' requires an identifier, call or parenthesized base"
  | .localMacro id => "macro '" ++ id ++ "' must not be local"

/-- Check an entity: its value, its index and its attributes. -/
def Entity.check (e : Entity) : Except DefinitionError Entity :=
  if Expr.areSound e.value.toList && Expr.areSound e.index
      && Expr.areItemsSound e.attributes then .ok e
  else .error (.attributeBase e.id)

/-- Check a macro: its name and its body. -/
def Macro.check (m : Macro) : Except DefinitionError Macro :=
  if isLocalName m.id then .error (.localMacro m.id)
  else if m.body.isSound then .ok m
  else .error (.attributeBase m.id)

/-! ## §2. Definitions. -/

/-- Something with a stamp of its own. -/
structure Stamped (α : Type) where
  stamp : Nat
  it : α

/-- What a name stands for. -/
inductive Definition where
  | entity (e : Stamped Entity)
  | macroDef (m : Stamped Macro)

end Phrasebook
