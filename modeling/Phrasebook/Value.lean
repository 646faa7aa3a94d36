/-
  Phrasebook.Value
  ────────────────────────────────
  **VALUES.**

  What an expression computes and what a caller passes in.  Numbers are
  64-bit integers or floats; references to entities and macros are passed
  around unopened until their text is needed.

      display    —  the text that a value leaves in a placed expression
      same       —  equality: numbers of one kind, references by stamp
      isTruthy   —  the side a conditional takes
-/
import Phrasebook.Definition
import Phrasebook.Number.Layout

namespace Phrasebook

/-! ## §1. Functions and values. -/

/-- A function that a resource can call. -/
inductive Function where
  /-- The plural category of a number in a locale. -/
  | plural (locale : String)
  /-- A function that the host program supplies.  The stamp tells it from
  other functions of the same name. -/
  | host (name : String) (stamp : Nat)
  deriving Repr, DecidableEq

/-- The name a function is shown by. -/
def Function.name : Function → String
  | .plural _ => "plural"
  | .host name _ => name

/-- A value. -/
inductive Value where
  /-- No value: a variable nobody set, or an entity without a value. -/
  | absent
  | bool (b : Bool)
  | number (n : Int64)
  | float (x : Float)
  | text (s : String)
  | array (elements : List Value)
  /-- The items of a hash in their order. -/
  | hash (items : List (String × Value))
  /-- A reference to an entity. -/
  | entity (e : Stamped Entity)
  /-- A reference to a macro. -/
  | macroRef (m : Stamped Macro)
  | function (f : Function)

instance : Inhabited Value := ⟨.absent⟩

/-! ## §2. Kinds. -/

/-- The kinds of values, as messages name them. -/
inductive Kind where
  | absent | bool | number | float | text | array | hash | entity | macroRef | function
  deriving Repr, DecidableEq

/-- The name of a kind. -/
def Kind.name : Kind → String
  | .absent => "absent"
  | .bool => "bool"
  | .number => "number"
  | .float => "float"
  | .text => "string"
  | .array => "array"
  | .hash => "hash"
  | .entity => "entity"
  | .macroRef => "macro"
  | .function => "function"

namespace Value

/-- The kind of a value. -/
def kind : Value → Kind
  | absent => .absent
  | bool _ => .bool
  | number _ => .number
  | float _ => .float
  | text _ => .text
  | array _ => .array
  | hash _ => .hash
  | entity _ => .entity
  | macroRef _ => .macroRef
  | function _ => .function

/-! ## §3. Views. -/

/-- The integer, if the value is one. -/
def asNumber : Value → Option Int64
  | number n => some n
  | _ => none

/-- The number as a float, if the value is one.  A large integer is rounded
to the nearest float. -/
def asFloat : Value → Option Float
  | float x => some x
  | number n => some (Float.ofInt n.toInt)
  | _ => none

/-- The text, if the value is one. -/
def asText : Value → Option String
  | text s => some s
  | _ => none

/-- The truth value, if the value is one. -/
def asBool : Value → Option Bool
  | bool b => some b
  | _ => none

/-- Is there no value? -/
def isAbsent : Value → Bool
  | absent => true
  | _ => false

/-- The first item of a list with the given key. -/
def item? (key : String) : List (String × Value) → Option Value
  | [] => none
  | (k, v) :: items => if k = key then some v else item? key items

/-- The item of a hash with the given key. -/
def get? (key : String) : Value → Option Value
  | hash items => item? key items
  | _ => none

/-- The side a conditional takes: nothing, `false`, zero and the empty text
count as false. -/
def isTruthy : Value → Bool
  | absent => false
  | bool b => b
  | number n => n != 0
  | float x => x != 0
  | text s => s != ""
  | array _ | hash _ | entity _ | macroRef _ | function _ => true

/-! ## §4. Display. -/

mutual
/-- The text of a value.  Elements and items are separated by a comma, and
the keys of a hash are not shown; a reference shows its name. -/
def display : Value → String
  | absent => ""
  | bool b => if b then "true" else "false"
  | number n => integerText n.toInt
  | float x => floatText x
  | text s => s
  | array elements => ", ".intercalate (displays elements)
  | hash items => ", ".intercalate (displayItems items)
  | entity e => e.it.id
  | macroRef m => m.it.id
  | function f => f.name
  termination_by structural v => v

/-- The texts of several values. -/
def displays : List Value → List String
  | [] => []
  | v :: vs => v.display :: displays vs
  termination_by structural vs => vs

/-- The texts of the values of several items. -/
def displayItems : List (String × Value) → List String
  | [] => []
  | (_, v) :: items => v.display :: displayItems items
  termination_by structural items => items
end

/-! ## §5. Equality. -/

mutual
/-- Equality of values.  An integer and a float are never the same, a float
that is not a number is not even the same as itself, and references are the
same if they are to one definition. -/
def same : Value → Value → Bool
  | absent, absent => true
  | bool a, bool b => a == b
  | number a, number b => a == b
  | float a, float b => a == b
  | text a, text b => a == b
  | array as, array bs => sameAll as bs
  | hash as, hash bs => sameItems as bs
  | entity a, entity b => a.stamp == b.stamp
  | macroRef a, macroRef b => a.stamp == b.stamp
  | function f, function g => f == g
  | _, _ => false
  termination_by structural v => v

/-- Equality of lists of values. -/
def sameAll : List Value → List Value → Bool
  | [], [] => true
  | a :: as, b :: bs => a.same b && sameAll as bs
  | _, _ => false
  termination_by structural vs => vs

/-- Equality of lists of items, their keys and order included. -/
def sameItems : List (String × Value) → List (String × Value) → Bool
  | [], [] => true
  | (j, a) :: as, (k, b) :: bs => j == k && a.same b && sameItems as bs
  | _, _ => false
  termination_by structural items => items
end

end Value

/-! ## §6. Bindings. -/

/-- Names with values: the data of a caller, the globals of a context, the
arguments of a macro. -/
abbrev Bindings : Type :=
  List (String × Value)

namespace Bindings

/-- The value of a name. -/
def find? (name : String) (bindings : Bindings) : Option Value :=
  Value.item? name bindings

/-- Give a name a value, instead of the one it had. -/
def set (name : String) (value : Value) : Bindings → Bindings
  | [] => [(name, value)]
  | (k, v) :: bindings =>
    if k = name then (name, value) :: bindings else (k, v) :: set name value bindings

theorem find?_set (name other : String) (value : Value) (bindings : Bindings) :
    find? other (set name value bindings)
      = if other = name then some value else find? other bindings := by
  induction bindings with
  | nil => simp only [set, find?, Value.item?, eq_comm]
  | cons head bindings ih =>
    obtain ⟨k, v⟩ := head
    simp only [find?] at ih
    by_cases hk : k = name
    · subst hk
      by_cases ho : other = k
      · simp [set, find?, Value.item?, ho]
      · simp [set, find?, Value.item?, ho, Ne.symm ho]
    · by_cases ho : k = other
      · subst ho
        simp [set, find?, Value.item?, hk]
      · simp [set, find?, Value.item?, hk, ho, ih]

end Bindings

end Phrasebook
