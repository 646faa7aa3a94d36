/-
  Phrasebook.Context.Step
  ────────────────────────────────
  **RUNS OF A CONTEXT.**

  Everything that can be done with a context is a step, every step has an
  answer, and a run is a list of steps.  A step that is refused leaves the
  context as it was.
-/
import Phrasebook.Context.Lookup

namespace Phrasebook

/-! ## §1. Steps. -/

/-- What a context runs against. -/
structure World where
  store : Store
  /-- How pending loads go on, by their places among the resources. -/
  pace : Nat → Pace
  /-- Is there something that can run pending loads? -/
  hasRuntime : Bool

/-- Something that can be done with a context. -/
inductive Step where
  | add (uri : String)
  | addPending (uri : String)
  | freeze
  | freezeNow
  | summary (level : Nat)
  | ids (level : Nat)
  | get (level : Nat) (id : String) (data : Bindings)
  | getAttribute (level : Nat) (id name : String) (data : Bindings)
  | getAttributes (level : Nat) (id : String) (data : Bindings)
  | getEntity (level : Nat) (id : String) (data : Bindings)

/-- The answer to a step. -/
inductive Answer where
  /-- The step was done. -/
  | accepted
  | summary (s : Context.Summary)
  | names (ids : List String)
  | text (s : String)
  | value (v : Value)
  | attributes (values : List (String × Value))
  | entity (v : EntityValue)
  /-- There is no context at the level. -/
  | noLevel
  | refused (e : ContextError)

namespace Context

/-! ## §2. Runs. -/

/-- The context after a step that may be refused, and the answer. -/
def changed (c : Context) : Except ContextError Context → Context × Answer
  | .ok next => (next, .accepted)
  | .error e => (c, .refused e)

/-- The answer to a question. -/
def answerOf {α : Type} (make : α → Answer) : Option (Except ContextError α) → Answer
  | none => .noLevel
  | some (.error e) => .refused e
  | some (.ok a) => make a

/-- Do a step; the context after it, the answer, and what is seen of it. -/
def step (world : World) (c : Context) : Step → (Context × Answer) × Log
  | .add uri => changing (c.add uri)
  | .addPending uri => (c.changed (c.addPending world.hasRuntime uri), [])
  | .freeze =>
    let (result, log) := c.freeze world.store.read world.pace
    (c.changed result, log)
  | .freezeNow => changing c.freezeNow
  | .summary level =>
    let ((next, answer), log) := (c.summary level).run world.store.read
    ((next, (answer.map Answer.summary).getD .noLevel), log)
  | .ids level => asking .names (c.ids level)
  | .get level id data => asking .text (c.ask level id (Question.text data))
  | .getAttribute level id name data =>
    asking .value (c.ask level id (Question.attributeValue data name))
  | .getAttributes level id data =>
    asking .attributes (c.ask level id (Question.attributeValues data))
  | .getEntity level id data => asking .entity (c.ask level id (Question.whole data))
where
  /-- Run an errand that may change the context. -/
  changing (errand : Errand (Except ContextError Context)) : (Context × Answer) × Log :=
    let (result, log) := errand.run world.store.read
    (c.changed result, log)
  /-- Run an errand that answers a question. -/
  asking {α : Type} (make : α → Answer)
      (errand : Errand (Context × Option (Except ContextError α))) :
      (Context × Answer) × Log :=
    let ((next, answer), log) := errand.run world.store.read
    ((next, answerOf make answer), log)

/-- Do several steps; the context after them, and what is seen of them. -/
def steps (world : World) (c : Context) : List Step → (Context × List Answer) × Log
  | [] => ((c, []), [])
  | s :: ss =>
    let ((c, answer), log) := c.step world s
    let ((c, answers), later) := c.steps world ss
    ((c, answer :: answers), log ++ later)

end Context

end Phrasebook
