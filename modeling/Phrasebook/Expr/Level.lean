/-
  Phrasebook.Expr.Level
  ────────────────────────────────
  **THE LEVELS OF AN EXPRESSION.**

  From the loosest binding to the tightest:

      conditional   test ? consequent : alternate
      ||    &&    == !=    <= >= < >    + -    %    *    /
      prefix        + - !
      member        .key  [key]  ..key  .[key]  (arguments)
      primary       numbers, literals, names, parentheses

  Every binary operator groups to the left.  Branches, arguments, keys in
  brackets, parentheses and operands of prefix operators open one more
  nesting level and go through `Nested`; `nested` ties the knot, one level
  at a time, down to the level where nothing may be nested any more.
-/
import Phrasebook.Expr.Literal

namespace Phrasebook

open Phrasebook.Parser

/-! ## §1. Primaries. -/

/-- Read an expression in parentheses, after the opening one. -/
def parenthesis (inner : Nested) : Parser Expr := do
  blank
  let e ← inner.expression
  blank
  exactly ")"
  pure (.paren e)

/-- Read a number, a literal, a variable, a global or a name. -/
def primary (inner : Nested) : Parser Expr := do
  let digit ← ahead fun s => (s.head?.map Char.isDigit).getD false
  let literal ← literalAhead
  if digit then
    let n ← number
    pure (.number n)
  else if literal then
    inner.literal
  else
    let isVar ← eat "$"
    if isVar then
      let id ← name
      pure (.var id)
    else
      let isGlobal ← eat "@"
      if isGlobal then
        let id ← name
        pure (.global id)
      else
        let id ← name
        pure (.name id)

/-- Read a parenthesis or a primary. -/
def base (inner : Nested) : Parser Expr := do
  let opened ← eat "("
  if opened then parenthesis inner else primary inner

/-! ## §2. Accesses and calls. -/

/-- Read a key in brackets, after the opening one. -/
def bracketed (inner : Nested) : Parser (Accessor Expr) := do
  blank
  let e ← inner.expression
  blank
  exactly "]"
  pure (.computed e)

/-- Read the name of an access, after its dots. -/
def namedKey : Parser (Accessor Expr) := do
  let id ← name
  pure (.named id)

/-- Read an attribute access of `e`. -/
def attributeAccess (inner : Nested) (e : Expr) : Parser Expr :=
  if e.canHaveAttribute then do
    let dots ← eat ".."
    if dots then
      let key ← namedKey
      pure (.attribute e key)
    else
      exactly ".["
      let key ← bracketed inner
      pure (.attribute e key)
  else
    stop .attributeBase

/-- Read a property access of `e`. -/
def propertyAccess (inner : Nested) (e : Expr) : Parser Expr := do
  let dot ← eat "."
  if dot then
    let key ← namedKey
    pure (.property e key)
  else
    exactly "["
    let key ← bracketed inner
    pure (.property e key)

/-- Read a call of `e`. -/
def callOf (inner : Nested) (e : Expr) : Parser Expr := do
  exactly "("
  let arguments ← tightList .callArguments inner.expression
  pure (.call e arguments)

/-- Read one access or call of `e`, if one is ahead. -/
def access (inner : Nested) (e : Expr) : Parser (Option Expr) := do
  let twoDots ← isAhead ".."
  let dotBracket ← isAhead ".["
  let dot ← isAhead "."
  let bracket ← isAhead "["
  let call ← isAhead "("
  if twoDots || dotBracket then some <$> attributeAccess inner e
  else if dot || bracket then some <$> propertyAccess inner e
  else if call then some <$> callOf inner e
  else pure none

/-- Read a base with its accesses and calls. -/
def member (inner : Nested) : Parser Expr := do
  let e ← base inner
  chain (access inner) e

/-! ## §3. Operators. -/

/-- Read a member behind any number of prefix operators. -/
def prefixed (inner : Nested) : Parser Expr := do
  let plus ← eat "+"
  if plus then
    Expr.unary .plus <$> inner.operand
  else
    let minus ← eat "-"
    if minus then
      Expr.unary .minus <$> inner.operand
    else
      let bang ← eat "!"
      if bang then
        Expr.unary .not <$> inner.operand
      else
        member inner

variable {ω : Type}

/-- The first of the operators that the text starts with, and what follows
it. -/
def firstOperator : (ops : List (String × ω)) → (s : List Char) → Option (ω × List Char)
  | [], _ => none
  | (symbol, op) :: ops, s =>
    match after? symbol.toList s with
    | some r => some (op, r)
    | none => firstOperator ops s

/-- Read blanks and one of the operators; without an operator the blanks
stay unread. -/
def operator (ops : List (String × ω)) : Parser (Option ω) := fun s =>
  match firstOperator ops (dropBlank s) with
  | some (op, r) => .ok (some op) r
  | none => .ok none s

/-- Read operands with operators between them, grouped to the left. -/
def leftGrouped (ops : List (String × ω)) (build : ω → Expr → Expr → Expr)
    (operand : Parser Expr) : Parser Expr := do
  let first ← operand
  chain (fun left => do
    match ← operator ops with
    | none => pure none
    | some op => do
      blank
      let right ← operand
      pure (some (build op left right))) first

/-- The binary operators of one level, each with its symbol. -/
def symbols (ops : List BinaryOp) : List (String × BinaryOp) :=
  ops.map fun op => (op.symbol, op)

/-- Read an expression with `/`. -/
def quotient (inner : Nested) : Parser Expr :=
  leftGrouped (symbols [.divide]) .binary (prefixed inner)

/-- Read an expression with `*`. -/
def product (inner : Nested) : Parser Expr :=
  leftGrouped (symbols [.multiply]) .binary (quotient inner)

/-- Read an expression with `%`. -/
def modulo (inner : Nested) : Parser Expr :=
  leftGrouped (symbols [.remainder]) .binary (product inner)

/-- Read an expression with `+` and `-`. -/
def sum (inner : Nested) : Parser Expr :=
  leftGrouped (symbols [.add, .subtract]) .binary (modulo inner)

/-- Read a comparison of order; the longer symbols come first, so that `<=`
is not read as `<`. -/
def relation (inner : Nested) : Parser Expr :=
  leftGrouped (symbols [.lessEqual, .greaterEqual, .less, .greater]) .binary (sum inner)

/-- Read a comparison of equality. -/
def equality (inner : Nested) : Parser Expr :=
  leftGrouped (symbols [.equal, .notEqual]) .binary (relation inner)

/-- Read an expression with `&&`. -/
def conjunction (inner : Nested) : Parser Expr :=
  leftGrouped [(LogicalOp.and.symbol, .and)] .logical (equality inner)

/-- Read an expression with `||`. -/
def disjunction (inner : Nested) : Parser Expr :=
  leftGrouped [(LogicalOp.or.symbol, .or)] .logical (conjunction inner)

/-- Read a choice, or what may be the test of one.  The blanks behind it are
read too. -/
def conditional (inner : Nested) : Parser Expr := do
  let test ← disjunction inner
  blank
  let asked ← eat "?"
  if asked then
    blank
    let consequent ← inner.expression
    blank
    exactly ":"
    blank
    let alternate ← inner.expression
    pure (.conditional test consequent alternate)
  else
    pure test

/-! ## §4. Nesting. -/

/-- The readers that open a nesting level when `n` more may be opened. -/
def nested : Nat → Nested
  | 0 => ⟨stop .shallowerNesting, stop .shallowerNesting, stop .shallowerNesting⟩
  | n + 1 =>
    let inner := nested n
    { expression := conditional inner
      operand := do
        blank
        prefixed inner
      literal := literal inner }

/-- How deep literals, parentheses, operands of prefix operators and the like
may be nested in one entry. -/
def maxNesting : Nat := 32

/-- The readers at the top of an entry. -/
def outermost : Nested :=
  nested maxNesting

end Phrasebook
