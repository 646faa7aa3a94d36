/-
  Phrasebook.Parser.Basic
  ────────────────────────────────
  **READERS OVER A LIST OF CHARACTERS.**

  A `Parser α` reads an `α` off the front of a text:

      ok value rest    —  `value` was read, `rest` is what follows it
      fail what rest   —  nothing else could be done in front of `rest`

  There is no backtracking: a failure ends the whole entry, and the rest it
  carries is the point of the error.  A reader that wants a choice looks at
  the text first (`ahead`) or tries an exact text (`eat`).

  Loops come in two shapes, `collect` (a list of items) and `chain` (a left
  fold).  Each round of either reads something, so a text of `n` characters
  has at most `n` rounds and one last round that reads nothing; the text at
  the start of the loop serves as the budget, and the recursion is on it.
-/
import Phrasebook.Parser.Expected
import Phrasebook.Text.Search

namespace Phrasebook

/-! ## §1. Outcomes. -/

/-- What came of reading. -/
inductive Outcome (α : Type) where
  /-- The value was read, and the rest follows it. -/
  | ok (value : α) (rest : List Char)
  /-- The reader stopped in front of the rest, where this was expected. -/
  | fail (expected : Expected) (rest : List Char)
  deriving Repr, DecidableEq

namespace Outcome

variable {α β : Type}

/-- Go on with what was read, from where it ends. -/
def bind (o : Outcome α) (f : α → List Char → Outcome β) : Outcome β :=
  match o with
  | .ok a rest => f a rest
  | .fail e rest => .fail e rest

/-- The text that is left. -/
def rest : Outcome α → List Char
  | .ok _ r => r
  | .fail _ r => r

end Outcome

/-- Reads an `α` off the front of a text. -/
def Parser (α : Type) : Type :=
  List Char → Outcome α

namespace Parser

variable {α β : Type}

instance : Monad Parser where
  pure a := fun s => .ok a s
  bind p f := fun s => (p s).bind f

theorem pure_apply (a : α) (s : List Char) : (pure a : Parser α) s = .ok a s := rfl

theorem bind_apply (p : Parser α) (f : α → Parser β) (s : List Char) :
    (p >>= f) s = (p s).bind f := rfl

/-! ## §2. Single steps. -/

/-- Stop here. -/
def stop (e : Expected) : Parser α :=
  fun s => .fail e s

/-- Ask something of the text ahead, and read nothing. -/
def ahead (p : List Char → α) : Parser α :=
  fun s => .ok (p s) s

/-- The characters up to the first one that fails the test. -/
def takeWhile (p : Char → Bool) : Parser (List Char) :=
  fun s => .ok (s.takeWhile p) (s.dropWhile p)

/-- Does the text ahead start with `t`? -/
def isAhead (t : String) : Parser Bool :=
  ahead fun s => (after? t.toList s).isSome

/-- Read `t` if it is ahead, and say whether it was. -/
def eat (t : String) : Parser Bool :=
  fun s => match after? t.toList s with
    | some r => .ok true r
    | none => .ok false s

/-- Read exactly `t`. -/
def exactly (t : String) : Parser Unit :=
  fun s => match after? t.toList s with
    | some r => .ok () r
    | none => .fail (.exactly t) s

/-- The text before the first `t`; the `t` itself is not read. -/
def upTo (t : String) : Parser (List Char) :=
  fun s => match before? t.toList s with
    | some (b, r) => .ok b r
    | none => .fail (.exactly t) s

/-! ## §3. Loops. -/

/-- Read items until a round has none; `budget` bounds the rounds. -/
def collectWithin (next : Parser (Option α)) (budget : List Char) : Parser (List α) := do
  match ← next with
  | none => pure []
  | some a =>
    match budget with
    | [] => stop .progress
    | _ :: budget => do
      let as ← collectWithin next budget
      pure (a :: as)

/-- Read items until a round has none. -/
def collect (next : Parser (Option α)) : Parser (List α) :=
  fun s => collectWithin next s s

/-- Extend a value until a round has nothing to add; `budget` bounds the
rounds. -/
def chainWithin (extend : α → Parser (Option α)) (budget : List Char) (a : α) :
    Parser α := do
  match ← extend a with
  | none => pure a
  | some b =>
    match budget with
    | [] => stop .progress
    | _ :: budget => chainWithin extend budget b

/-- Extend a value until a round has nothing to add. -/
def chain (extend : α → Parser (Option α)) (a : α) : Parser α :=
  fun s => chainWithin extend s a s

end Parser

end Phrasebook
