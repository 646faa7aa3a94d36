/-
  Phrasebook.Eval.Operator
  ────────────────────────────────
  **THE OPERATORS ON VALUES.**

  Integers stay integers as long as the result is an integer of 64 bits;
  otherwise the operation is done on floats.  `+` joins texts as soon as one
  side is a text.  Numbers are compared as floats, texts by code point, and
  everything else only for sameness.

  The operands have been rendered: none of them is a reference to an entity.
-/
import Phrasebook.Eval.Error

namespace Phrasebook

/-! ## §1. Integers. -/

/-- The integer as a 64-bit one, if it fits. -/
def int64? (n : Int) : Option Int64 :=
  if Int64.minValue.toInt ≤ n ∧ n ≤ Int64.maxValue.toInt then some (Int64.ofInt n) else none

/-- The exact quotient, if the division is exact and the quotient fits. -/
def exactQuotient (a b : Int64) : Option Int64 :=
  if b.toInt = 0 ∨ Int.tmod a.toInt b.toInt ≠ 0 then none
  else int64? (Int.tdiv a.toInt b.toInt)

/-- The remainder of a division that truncates, if its quotient fits. -/
def exactRemainder (a b : Int64) : Option Int64 :=
  if b.toInt = 0 then none
  else (int64? (Int.tdiv a.toInt b.toInt)).map fun _ =>
    Int64.ofInt (Int.tmod a.toInt b.toInt)

/-! ## §2. Arithmetic. -/

/-- What an arithmetic operator does on integers, where it has an answer
there, and on floats. -/
structure Arithmetic where
  integers : Int64 → Int64 → Option Int64
  floats : Float → Float → Float

/-- Integers first, then floats. -/
def Arithmetic.apply (f : Arithmetic) (op : BinaryOp) (left right : Value) :
    Except EvalError Value :=
  let onIntegers := match left, right with
    | .number a, .number b => f.integers a b
    | _, _ => none
  match onIntegers with
  | some n => .ok (.number n)
  | none =>
    match left.asFloat, right.asFloat with
    | some a, some b => .ok (.float (f.floats a b))
    | _, _ => .error (.binaryMismatch op left.kind right.kind)

namespace Arithmetic

/-- What `+` does on numbers. -/
def sum : Arithmetic :=
  ⟨fun a b => int64? (a.toInt + b.toInt), fun a b => a + b⟩

/-- What `-` does. -/
def difference : Arithmetic :=
  ⟨fun a b => int64? (a.toInt - b.toInt), fun a b => a - b⟩

/-- What `*` does. -/
def product : Arithmetic :=
  ⟨fun a b => int64? (a.toInt * b.toInt), fun a b => a * b⟩

/-- What `/` does. -/
def quotient : Arithmetic :=
  ⟨exactQuotient, fun a b => a / b⟩

/-- What `%` does. -/
def remainder : Arithmetic :=
  ⟨exactRemainder, floatRemainder⟩

end Arithmetic

/-- Is the value a number equal to zero? -/
def Value.isZero (v : Value) : Bool :=
  match v.asFloat with
  | some x => x == 0
  | none => false

/-- `+` adds numbers, and joins the texts of both sides if one is a text. -/
def addValues (left right : Value) : Except EvalError Value :=
  match left, right with
  | .text a, b => .ok (.text (a ++ b.display))
  | a, .text b => .ok (.text (a.display ++ b))
  | a, b => Arithmetic.sum.apply .add a b

/-- A division, which zero refuses whatever the dividend is. -/
def divideValues (f : Arithmetic) (op : BinaryOp) (left right : Value) :
    Except EvalError Value :=
  if right.isZero then .error .divisionByZero else f.apply op left right

/-! ## §3. Comparisons. -/

/-- Equality: numbers by their value as floats, all else by sameness. -/
def looselyEqual (left right : Value) : Bool :=
  match left.asFloat, right.asFloat with
  | some a, some b => a == b
  | _, _ => left.same right

/-- A test of order, on texts and on numbers. -/
structure OrderTest where
  texts : String → String → Bool
  floats : Float → Float → Bool

/-- Texts by code point, numbers as floats. -/
def OrderTest.apply (t : OrderTest) (op : BinaryOp) (left right : Value) :
    Except EvalError Value :=
  match left, right with
  | .text a, .text b => .ok (.bool (t.texts a b))
  | a, b =>
    match a.asFloat, b.asFloat with
    | some x, some y => .ok (.bool (t.floats x y))
    | _, _ => .error (.binaryMismatch op a.kind b.kind)

namespace OrderTest

/-- The test of `<`. -/
def less : OrderTest := ⟨fun a b => decide (a < b), fun a b => a < b⟩

/-- The test of `>`. -/
def greater : OrderTest := ⟨fun a b => decide (b < a), fun a b => b < a⟩

/-- The test of `<=`. -/
def lessEqual : OrderTest := ⟨fun a b => !decide (b < a), fun a b => a ≤ b⟩

/-- The test of `>=`. -/
def greaterEqual : OrderTest := ⟨fun a b => !decide (a < b), fun a b => b ≤ a⟩

end OrderTest

/-! ## §4. All operators. -/

/-- The value of a binary operator. -/
def BinaryOp.apply : BinaryOp → Value → Value → Except EvalError Value
  | .add, a, b => addValues a b
  | .subtract, a, b => Arithmetic.difference.apply .subtract a b
  | .multiply, a, b => Arithmetic.product.apply .multiply a b
  | .divide, a, b => divideValues .quotient .divide a b
  | .remainder, a, b => divideValues .remainder .remainder a b
  | .equal, a, b => .ok (.bool (looselyEqual a b))
  | .notEqual, a, b => .ok (.bool (!looselyEqual a b))
  | .less, a, b => OrderTest.less.apply .less a b
  | .greater, a, b => OrderTest.greater.apply .greater a b
  | .lessEqual, a, b => OrderTest.lessEqual.apply .lessEqual a b
  | .greaterEqual, a, b => OrderTest.greaterEqual.apply .greaterEqual a b

/-- Does the left operand alone decide the value? -/
def LogicalOp.isDecidedBy : LogicalOp → Value → Bool
  | .and, left => !left.isTruthy
  | .or, left => left.isTruthy

/-- The value of a unary operator. -/
def UnaryOp.apply : UnaryOp → Value → Except EvalError Value
  | .plus, .number n => .ok (.number n)
  | .plus, .float x => .ok (.float x)
  | .plus, v => .error (.unaryMismatch .plus v.kind)
  | .minus, .number n =>
    match int64? (-n.toInt) with
    | some m => .ok (.number m)
    | none => .ok (.float (-Float.ofInt n.toInt))
  | .minus, .float x => .ok (.float (-x))
  | .minus, v => .error (.unaryMismatch .minus v.kind)
  | .not, v => .ok (.bool (!v.isTruthy))

end Phrasebook
