/-
  Phrasebook.Proofs.Load.Joining
  ────────────────────────────────
  **WHEN LOADS ARE JOINED.**

  A load that runs side by side with others takes as long as its reads wait,
  and comes to what it comes to anyway, unless a read breaks it off:

      course_finish, course_result

  Joining reaches one resource after the other, each at its time, and takes
  what it has by then (`reached`, `contribution`):

      joinAll_results   —  what comes of all of them
      joinedAt_le       —  how long it takes
      Joining.run_ends  —  the same, if time goes by step by step and loads
                           end while others are waited for
-/
import Mathlib.Logic.Relation
import Phrasebook.Load.Schedule

namespace Phrasebook

/-! ## §1. How long a load takes. -/

/-- How long reads wait, one after the other, up to the first that breaks its
load off. -/
def Pace.duration (pace : Pace) : List String → Nat
  | [] => 0
  | path :: paths =>
    (pace.wait path).getD 0 + if pace.breaksOff path then 0 else pace.duration paths

namespace Errand

variable {α : Type} (answers : String → Reading) (pace : Pace)

/-- What an errand reads. -/
def reads (e : Errand α) : List String :=
  (e.run answers).2.reads

theorem reads_read (path : String) (next : Reading → Errand α) :
    (Errand.read path next).reads answers = path :: (next (answers path)).reads answers :=
  rfl

theorem reads_announce (event : Event) (next : Errand α) :
    (Errand.announce event next).reads answers = next.reads answers :=
  rfl

/-- An errand ends when its reads have waited, one after the other. -/
theorem course_finish (e : Errand α) : ∀ wakings : List Nat,
    (e.course answers pace wakings).finish
      = wakings.headD 0 + pace.duration (e.reads answers) := by
  induction e with
  | done a => exact fun wakings => rfl
  | announce event next ih =>
    intro wakings
    rw [course, Course.noting_finish, ih, reads_announce]
  | read path next ih =>
    intro wakings
    -- the read itself, after its wait
    have hreading : ∀ wakings, (if pace.breaksOff path then Course.ending wakings none
        else ((next (answers path)).course answers pace wakings).noting (.read path)).finish
        = wakings.headD 0 + if pace.breaksOff path then 0
          else pace.duration ((next (answers path)).reads answers) := by
      intro wakings
      split
      · rfl
      · rw [Course.noting_finish, ih]
    rw [course, reads_read, Pace.duration]
    cases pace.wait path with
    | none =>
      rw [Option.getD_none, Nat.zero_add]
      exact hreading wakings
    | some wait =>
      rw [Option.getD_some, ← Nat.add_assoc]
      exact hreading (_ :: wakings)

/-- An errand comes to what its run comes to, unless a read breaks it off. -/
theorem course_result (e : Errand α) : ∀ wakings : List Nat,
    (e.course answers pace wakings).result
      = if (e.reads answers).any pace.breaksOff then none else some (e.run answers).1 := by
  induction e with
  | done a => exact fun wakings => rfl
  | announce event next ih =>
    intro wakings
    rw [course, Course.noting_result, ih, reads_announce]
    rfl
  | read path next ih =>
    intro wakings
    have hreading : ∀ wakings, (if pace.breaksOff path then Course.ending wakings none
        else ((next (answers path)).course answers pace wakings).noting (.read path)).result
        = if (path :: (next (answers path)).reads answers).any pace.breaksOff then none
          else some ((next (answers path)).run answers).1 := by
      intro wakings
      rw [List.any_cons]
      cases pace.breaksOff path with
      | true => rfl
      | false => exact (Course.noting_result _ _).trans (ih _ wakings)
    rw [course, reads_read]
    cases pace.wait path with
    | none => exact hreading wakings
    | some wait => exact hreading (_ :: wakings)

end Errand

/-! ## §2. When resources are reached. -/

namespace Joinable

variable (allowed now : Nat)

/-- When the load is over, if it is waited for. -/
def finish? : Joinable → Option Nat
  | .loaded _ => none
  | .pending _ course => some course.finish

/-- When the next resource is reached, if this one is reached now. -/
def next : Joinable → Nat
  | .loaded _ => now
  | .pending _ course =>
    if course.finish < now + allowed then max now course.finish else now + allowed

/-- What the resource contributes, if it is reached now. -/
def contribution : Joinable → Loader.Loaded
  | .loaded result => result
  | .pending uri course =>
    if course.finish < now + allowed then course.result.getD (.error (.aborted uri))
    else .error (.timedOut uri allowed)

theorem le_next (j : Joinable) : now ≤ j.next allowed now := by
  cases j with
  | loaded result => exact Nat.le_refl now
  | pending uri course =>
    rw [next]
    split
    · exact Nat.le_max_left _ _
    · exact Nat.le_add_right _ _

theorem next_le (j : Joinable) :
    j.next allowed now ≤ now + allowed * j.finish?.isSome.toNat := by
  cases j with
  | loaded result => exact Nat.le_add_right _ _
  | pending uri course =>
    have hone : allowed * (finish? (.pending uri course)).isSome.toNat = allowed := Nat.mul_one _
    rw [hone]
    rw [next]
    split <;> omega

theorem join_eq (j : Joinable) :
    ∃ work, j.join allowed now = (j.contribution allowed now, j.next allowed now, work) := by
  cases j with
  | loaded result => exact ⟨[], rfl⟩
  | pending uri course =>
    unfold join contribution next
    dsimp only
    split <;> exact ⟨_, rfl⟩

end Joinable

/-- When each resource is reached: the first one now. -/
def reached (allowed : Nat) : (now : Nat) → List Joinable → List Nat
  | _, [] => []
  | now, j :: js => now :: reached allowed (j.next allowed now) js

/-- When all resources have been joined. -/
def joinedAt (allowed now : Nat) (js : List Joinable) : Nat :=
  js.foldl (fun now j => j.next allowed now) now

/-- What all resources contribute. -/
def contributions (allowed now : Nat) (js : List Joinable) : List Loader.Loaded :=
  List.zipWith (Joinable.contribution allowed) (reached allowed now js) js

/-- No load is over at the very moment when its time is. -/
def Untied (allowed now : Nat) (js : List Joinable) : Prop :=
  ∀ p ∈ (reached allowed now js).zip js, p.2.finish? ≠ some (p.1 + allowed)

section

variable (allowed now : Nat)

theorem contributions_cons (j : Joinable) (js : List Joinable) :
    contributions allowed now (j :: js)
      = j.contribution allowed now :: contributions allowed (j.next allowed now) js :=
  rfl

theorem joinedAt_cons (j : Joinable) (js : List Joinable) :
    joinedAt allowed now (j :: js) = joinedAt allowed (j.next allowed now) js :=
  rfl

theorem untied_cons {j : Joinable} {js : List Joinable} :
    Untied allowed now (j :: js)
      ↔ j.finish? ≠ some (now + allowed) ∧ Untied allowed (j.next allowed now) js :=
  List.forall_mem_cons

/-- What comes of each resource when it is joined is what it contributes when
it is reached. -/
theorem joinAll_results (js : List Joinable) :
    ∀ now, (joinAll allowed now js).1 = contributions allowed now js := by
  induction js with
  | nil => exact fun now => rfl
  | cons j js ih =>
    intro now
    obtain ⟨work, hjoin⟩ := j.join_eq allowed now
    rw [joinAll, hjoin, contributions_cons, ← ih]

theorem le_joinedAt (js : List Joinable) : ∀ now, now ≤ joinedAt allowed now js := by
  induction js with
  | nil => exact fun now => Nat.le_refl now
  | cons j js ih => exact fun now => Nat.le_trans (j.le_next allowed now) (ih _)

/-- Joining takes no longer than what is allowed to each pending load. -/
theorem joinedAt_le (js : List Joinable) : ∀ now,
    joinedAt allowed now js ≤ now + allowed * js.countP fun j => j.finish?.isSome := by
  induction js with
  | nil => exact fun now => Nat.le_add_right _ _
  | cons j js ih =>
    intro now
    have hnext := j.next_le allowed now
    have hlater := ih (j.next allowed now)
    have hcount : (j :: js).countP (fun j => j.finish?.isSome)
        = js.countP (fun j => j.finish?.isSome) + j.finish?.isSome.toNat := by
      rw [List.countP_cons]
      cases j.finish?.isSome <;> rfl
    rw [joinedAt_cons, hcount, Nat.mul_add]
    omega

end

/-! ## §3. Joining while time goes by. -/

/-- Joining under way. -/
structure Joining where
  now : Nat
  /-- When the first of the resources that are left was reached. -/
  since : Nat
  left : List Joinable
  results : List Loader.Loaded

namespace Joining

/-- What can happen next. -/
inductive Step (allowed : Nat) : Joining → Joining → Prop where
  /-- The resource has been loaded before. -/
  | take {now since : Nat} {result : Loader.Loaded} {js : List Joinable}
      {results : List Loader.Loaded} :
      Step allowed ⟨now, since, .loaded result :: js, results⟩ ⟨now, now, js, results ++ [result]⟩
  /-- The load that is waited for is over. -/
  | finish {now since : Nat} {uri : String} {course : Course Loader.Loaded} {js : List Joinable}
      {results : List Loader.Loaded} (hover : course.finish ≤ now) :
      Step allowed ⟨now, since, .pending uri course :: js, results⟩
        ⟨now, now, js, results ++ [course.result.getD (.error (.aborted uri))]⟩
  /-- Its time is over, and it may still run. -/
  | expire {now since : Nat} {uri : String} {course : Course Loader.Loaded} {js : List Joinable}
      {results : List Loader.Loaded} (htime : now = since + allowed) (hruns : now ≤ course.finish) :
      Step allowed ⟨now, since, .pending uri course :: js, results⟩
        ⟨now, now, js, results ++ [.error (.timedOut uri allowed)]⟩
  /-- Neither, and time goes by for all loads. -/
  | wait {now since : Nat} {uri : String} {course : Course Loader.Loaded} {js : List Joinable}
      {results : List Loader.Loaded} (hruns : now < course.finish) (htime : now < since + allowed) :
      Step allowed ⟨now, since, .pending uri course :: js, results⟩
        ⟨now + 1, since, .pending uri course :: js, results⟩

variable {allowed : Nat} {s s' : Joining}

/-- What is known in the end, from what is known so far. -/
def outcome (allowed : Nat) (s : Joining) : List Loader.Loaded × Nat :=
  (s.results ++ contributions allowed s.since s.left, joinedAt allowed s.since s.left)

/-- No resource is waited for longer than it has to be. -/
structure OnTime (allowed : Nat) (s : Joining) : Prop where
  since_le : s.since ≤ s.now
  now_le : s.now ≤ s.left.head?.elim s.since (Joinable.next allowed s.since)
  untied : Untied allowed s.since s.left

/-- Joining that has just reached a resource is on time. -/
theorem OnTime.reaching {now : Nat} {js : List Joinable} {results : List Loader.Loaded}
    (h : Untied allowed now js) : OnTime allowed ⟨now, now, js, results⟩ where
  since_le := Nat.le_refl now
  now_le := by
    cases js with
    | nil => exact Nat.le_refl now
    | cons j js => exact j.le_next allowed now
  untied := h

/-- What is known in the end when the first resource has just been joined. -/
theorem outcome_joined (allowed now since : Nat) {j : Joinable} (js : List Joinable)
    (results : List Loader.Loaded) {result : Loader.Loaded} {reach : Nat}
    (hnext : j.next allowed since = reach) (hresult : j.contribution allowed since = result) :
    outcome allowed ⟨reach, reach, js, results ++ [result]⟩
      = outcome allowed ⟨now, since, j :: js, results⟩ := by
  unfold outcome
  rw [contributions_cons, joinedAt_cons, hnext, hresult, List.append_assoc, List.singleton_append]

/-- Every step keeps to the times, and to what is known in the end. -/
theorem Step.onTime (h : Step allowed s s') (hs : OnTime allowed s) :
    OnTime allowed s' ∧ outcome allowed s' = outcome allowed s := by
  obtain ⟨hsince, hnow, huntied⟩ := hs
  cases h with
  | @take now since result js results =>
    obtain ⟨-, hlater⟩ := (untied_cons _ _).1 huntied
    have hreach : (Joinable.loaded result).next allowed since = now := Nat.le_antisymm hsince hnow
    rw [hreach] at hlater
    exact ⟨.reaching hlater, outcome_joined _ _ _ _ _ hreach rfl⟩
  | @finish now since uri course js results hover =>
    obtain ⟨htie, hlater⟩ := (untied_cons _ _).1 huntied
    have hne : course.finish ≠ since + allowed := fun heq => htie (congrArg some heq)
    dsimp only [List.head?_cons, Option.elim_some, Joinable.next] at hsince hnow hlater
    -- the time of the load is not over, since that would be a tie
    have htime : course.finish < since + allowed := by
      split at hnow <;> omega
    rw [if_pos htime] at hnow hlater
    have hreach : max since course.finish = now := by omega
    rw [hreach] at hlater
    exact ⟨.reaching hlater,
      outcome_joined _ _ _ _ _ ((if_pos htime).trans hreach) (if_pos htime)⟩
  | @expire now since uri course js results htime hruns =>
    obtain ⟨-, hlater⟩ := (untied_cons _ _).1 huntied
    have hlate : ¬ course.finish < since + allowed := by omega
    have hreach : (Joinable.pending uri course).next allowed since = now :=
      (if_neg hlate).trans htime.symm
    rw [hreach] at hlater
    exact ⟨.reaching hlater, outcome_joined _ _ _ _ _ hreach (if_neg hlate)⟩
  | @wait now since uri course js results hruns htime =>
    refine ⟨⟨Nat.le_succ_of_le hsince, ?_, huntied⟩, rfl⟩
    show now + 1 ≤ if course.finish < since + allowed then max since course.finish
      else since + allowed
    split <;> omega

/-- Until no resource is left, something can happen. -/
theorem exists_step (hleft : s.left ≠ []) (hs : OnTime allowed s) :
    ∃ s', Step allowed s s' := by
  obtain ⟨now, since, left, results⟩ := s
  match left with
  | [] => exact absurd rfl hleft
  | .loaded result :: js => exact ⟨_, .take⟩
  | .pending uri course :: js =>
    by_cases hover : course.finish ≤ now
    · exact ⟨_, .finish hover⟩
    · by_cases htime : now < since + allowed
      · exact ⟨_, .wait (by omega) htime⟩
      · have hnow := hs.now_le
        dsimp only [List.head?_cons, Option.elim_some, Joinable.next] at hnow
        have hexpired : now = since + allowed := by
          split at hnow <;> omega
        exact ⟨_, .expire hexpired (by omega)⟩

/-- How much can happen yet. -/
def todo (allowed : Nat) (s : Joining) : Nat :=
  s.left.length + ((outcome allowed s).2 - s.now)

/-- Each step takes a resource away, or some of the time. -/
theorem Step.todo_lt (h : Step allowed s s') (hs : OnTime allowed s) :
    todo allowed s' < todo allowed s := by
  obtain ⟨hs', houtcome⟩ := h.onTime hs
  unfold todo
  rw [houtcome]
  cases h with
  | take | finish _ | expire _ _ =>
    simp only [List.length_cons]
    omega
  | @wait now since uri course js results hruns htime =>
    -- the clock has not passed the end
    have hnow : now + 1 ≤ (Joinable.pending uri course).next allowed since := hs'.now_le
    have hend : (Joinable.pending uri course).next allowed since
      ≤ (outcome allowed ⟨now, since, .pending uri course :: js, results⟩).2 :=
      le_joinedAt allowed js _
    dsimp only at hend ⊢
    omega

/-- Whatever has happened, joining can be brought to an end. -/
theorem exists_end (n : Nat) : ∀ s : Joining, OnTime allowed s → todo allowed s < n →
    ∃ s', Relation.ReflTransGen (Step allowed) s s' ∧ s'.left = [] := by
  -- by induction on what can happen yet
  induction n with
  | zero => exact fun s _ hn => absurd hn (Nat.not_lt_zero _)
  | succ n ih =>
    intro s hs hn
    by_cases hleft : s.left = []
    · exact ⟨s, .refl, hleft⟩
    · obtain ⟨next, hstep⟩ := exists_step hleft hs
      have hless := hstep.todo_lt hs
      obtain ⟨s', hrun, hend⟩ := ih next (hstep.onTime hs).1 (by omega)
      exact ⟨s', hrun.head hstep, hend⟩

theorem run_onTime (h : Relation.ReflTransGen (Step allowed) s s') (hs : OnTime allowed s) :
    OnTime allowed s' ∧ outcome allowed s' = outcome allowed s := by
  induction h with
  | refl => exact ⟨hs, rfl⟩
  | tail _ hstep ih =>
    obtain ⟨hmid, heq⟩ := ih
    obtain ⟨hlast, hnext⟩ := hstep.onTime hmid
    exact ⟨hlast, hnext.trans heq⟩

/-- Nothing has been joined yet. -/
def start (js : List Joinable) : Joining := ⟨0, 0, js, []⟩

/-- Joining comes to an end from wherever it has come to, and at the end the
results and the time are always the same. -/
theorem run_ends {js : List Joinable} (huntied : Untied allowed 0 js)
    (hrun : Relation.ReflTransGen (Step allowed) (start js) s) :
    (∃ last, Relation.ReflTransGen (Step allowed) s last ∧ last.left = [])
      ∧ (s.left = [] →
        s.results = contributions allowed 0 js ∧ s.now = joinedAt allowed 0 js) := by
  obtain ⟨hs, houtcome⟩ := run_onTime hrun (.reaching huntied)
  refine ⟨exists_end _ s hs (Nat.lt_succ_self _), fun hleft => ?_⟩
  obtain ⟨now, since, left, results⟩ := s
  obtain rfl : left = [] := hleft
  obtain ⟨hresults, htime⟩ := Prod.mk.inj houtcome
  have hresults' : results ++ [] = [] ++ contributions allowed 0 js := hresults
  rw [List.append_nil, List.nil_append] at hresults'
  have hnow : now = since := Nat.le_antisymm hs.now_le hs.since_le
  exact ⟨hresults', hnow.trans htime⟩

end Joining

end Phrasebook
