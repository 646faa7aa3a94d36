/-
  Phrasebook.Load.Schedule
  ────────────────────────────────
  **LOADS THAT RUN SIDE BY SIDE.**

  Pending loads all start at time 0 and run side by side.  They are joined in
  the order of their registration:

      t₁ = 0
      tᵢ₊₁ = max tᵢ cᵢ   and load i has its result    if cᵢ < tᵢ + allowed
      tᵢ₊₁ = tᵢ + allowed and load i has timed out    otherwise

  where cᵢ is when load i would be done.  A load that has timed out does
  nothing from then on.
-/
import Phrasebook.Load.Loader
import Phrasebook.Text.Sorted

namespace Phrasebook

/-! ## §1. One load. -/

/-- How the reads of a load go that runs side by side with others. -/
structure Pace where
  /-- How long the read of a path waits; without a wait nothing else runs
  before it. -/
  wait : String → Option Nat
  /-- Does the read of a path break its load off? -/
  breaksOff : String → Bool

/-- Nothing waits, and nothing breaks off. -/
def Pace.prompt : Pace where
  wait _ := none
  breaksOff _ := false

/-- One pace for all loads. -/
instance : Coe Pace (Nat → Pace) :=
  ⟨fun pace _ => pace⟩

/-- Work without a wait in it. -/
structure Stretch where
  /-- When the load went on after each of its waits so far, the last time
  first. -/
  wakings : List Nat
  log : Log

/-- When a stretch of work is done. -/
def Stretch.time (s : Stretch) : Nat :=
  s.wakings.headD 0

/-- How a load runs if nothing stops it. -/
structure Course (α : Type) where
  stretches : List Stretch
  /-- When it ends. -/
  finish : Nat
  /-- What comes of it, unless it breaks off. -/
  result : Option α

namespace Course

variable {α : Type}

/-- The course of work that ends at once. -/
def ending (wakings : List Nat) (result : Option α) : Course α :=
  ⟨[⟨wakings, []⟩], wakings.headD 0, result⟩

/-- A course with a note in front. -/
def noting (note : Note) (c : Course α) : Course α :=
  match c.stretches with
  | [] => { c with stretches := [⟨[], [note]⟩] }
  | s :: ss => { c with stretches := { s with log := note :: s.log } :: ss }

theorem noting_finish (note : Note) (c : Course α) : (c.noting note).finish = c.finish := by
  unfold noting
  split <;> rfl

theorem noting_result (note : Note) (c : Course α) : (c.noting note).result = c.result := by
  unfold noting
  split <;> rfl

/-- A course that starts with a wait. -/
def waiting (wakings : List Nat) (c : Course α) : Course α :=
  { c with stretches := ⟨wakings, []⟩ :: c.stretches }

end Course

/-- The course of an errand that goes on after the last of `wakings`. -/
def Errand.course {α : Type} (answers : String → Reading) (pace : Pace) :
    (wakings : List Nat) → Errand α → Course α
  | wakings, .done a => .ending wakings (some a)
  | wakings, .announce event next => (next.course answers pace wakings).noting (.event event)
  | wakings, .read path next =>
    let reading := fun wakings =>
      if pace.breaksOff path then .ending wakings none
      else ((next (answers path)).course answers pace wakings).noting (.read path)
    match pace.wait path with
    | none => reading wakings
    | some duration => (reading ((wakings.headD 0 + duration) :: wakings)).waiting wakings

/-! ## §2. Joining loads. -/

/-- What is known of a resource when its load is joined. -/
inductive Joinable where
  /-- The load is over. -/
  | loaded (result : Loader.Loaded)
  /-- The load runs like this. -/
  | pending (uri : String) (course : Course Loader.Loaded)

/-- What comes of a load that is joined at `now`, the time when the next one
is joined, and the work that was done. -/
def Joinable.join (allowed now : Nat) : Joinable → Loader.Loaded × Nat × List Stretch
  | .loaded result => (result, now, [])
  | .pending uri course =>
    let deadline := now + allowed
    if course.finish < deadline then
      (course.result.getD (.error (.aborted uri)), max now course.finish, course.stretches)
    else
      (.error (.timedOut uri allowed), deadline,
        course.stretches.filter fun s => s.time < deadline)

/-- Join loads in order; what comes of each, and the work that was done. -/
def joinAll (allowed : Nat) : (now : Nat) → List Joinable → List Loader.Loaded × List Stretch
  | _, [] => ([], [])
  | now, j :: js =>
    let (result, next, stretches) := j.join allowed now
    let (results, others) := joinAll allowed next js
    (result :: results, stretches ++ others)

/-! ## §3. What is seen of loads that run side by side. -/

/-- Does work after these waits come before work after those?  The earlier
time comes first; at one time, the load comes first that began its wait
earlier. -/
def comesBefore : List Nat → List Nat → Bool
  | _, [] => false
  | [], _ :: _ => true
  | t :: ts, u :: us => t < u || t == u && comesBefore ts us

/-- What is seen of work, in the order in which it is done; at one time, in
the order of the list. -/
def interleave (stretches : List Stretch) : Log :=
  (sortBy (fun s t => comesBefore s.wakings t.wakings) stretches).flatMap Stretch.log

end Phrasebook
