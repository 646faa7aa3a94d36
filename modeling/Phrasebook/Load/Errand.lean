/-
  Phrasebook.Load.Errand
  ────────────────────────────────
  **ERRANDS: WORK THAT READS TEXTS.**

  An errand is the tree of what it does: it reads a path and goes on by the
  answer, it announces an event, and at last it is done.  What it runs
  against is chosen later:

      run      —  reads are answered one after the other   (here)
      course   —  reads take time                          (Phrasebook.Load.Schedule)

  Every run gives the result and the log of what can be seen from outside.
-/
import Phrasebook.Load.Failure
import Phrasebook.Resource

namespace Phrasebook

/-! ## §1. What can be seen from outside. -/

/-- What a context announces. -/
inductive Event where
  /-- A part of a resource could not be read, and reading went on behind it. -/
  | syntaxError (e : SyntaxError)
  /-- A tier has been frozen. -/
  | ready
  deriving Repr, DecidableEq

/-- What can be seen of an errand from outside. -/
inductive Note where
  /-- A path was read, with whatever answer. -/
  | read (path : String)
  | event (e : Event)
  deriving Repr, DecidableEq

/-- What was seen, in order. -/
abbrev Log : Type := List Note

/-- The events among what was seen. -/
def Log.events (log : Log) : List Event :=
  log.filterMap fun
    | .event e => some e
    | .read _ => none

/-- The paths among what was seen. -/
def Log.reads (log : Log) : List String :=
  log.filterMap fun
    | .read path => some path
    | .event _ => none

theorem Log.events_append (log later : Log) :
    Log.events (log ++ later) = log.events ++ Log.events later := by
  simp [Log.events]

theorem Log.reads_append (log later : Log) :
    Log.reads (log ++ later) = log.reads ++ Log.reads later := by
  simp [Log.reads]

/-! ## §2. Errands. -/

/-- How a read is answered. -/
abbrev Reading : Type := Except ReadError String

/-- Work that reads texts and announces events. -/
inductive Errand (α : Type) where
  | done (result : α)
  /-- Read a path, and go on by the answer. -/
  | read (path : String) (next : Reading → Errand α)
  /-- Announce an event, and go on. -/
  | announce (event : Event) (next : Errand α)

namespace Errand

variable {α β : Type}

/-- Do an errand, then the one that its result asks for. -/
def bind : Errand α → (α → Errand β) → Errand β
  | .done a, f => f a
  | .read path next, f => .read path fun answer => (next answer).bind f
  | .announce event next, f => .announce event (next.bind f)

instance : Monad Errand where
  pure := .done
  bind := bind

theorem pure_eq (a : α) : (pure a : Errand α) = .done a := rfl

theorem bind_eq (e : Errand α) (f : α → Errand β) : (e >>= f) = e.bind f := rfl

/-- Announce the syntax errors of a resource. -/
def reportAll (errors : List SyntaxError) : Errand Unit :=
  errors.foldr (fun e later => .announce (.syntaxError e) later) (.done ())

/-- Do an errand for each item, in order. -/
def forEach (f : α → Errand β) : List α → Errand (List β)
  | [] => pure []
  | a :: as => do
    let b ← f a
    let bs ← forEach f as
    pure (b :: bs)

/-! ## §3. Running an errand. -/

/-- The result of an errand, and what is seen of it, if reads are answered by
`answers`. -/
def run (answers : String → Reading) : Errand α → α × Log
  | .done a => (a, [])
  | .read path next =>
    let (a, log) := (next (answers path)).run answers
    (a, .read path :: log)
  | .announce event next =>
    let (a, log) := next.run answers
    (a, .event event :: log)

theorem run_bind (answers : String → Reading) (e : Errand α) (f : α → Errand β) :
    (e.bind f).run answers
      = (((f (e.run answers).1).run answers).1,
         (e.run answers).2 ++ ((f (e.run answers).1).run answers).2) := by
  induction e with
  | done a => rfl
  | read path next ih => simp [bind, run, ih]
  | announce event next ih => simp [bind, run, ih]

end Errand

end Phrasebook
