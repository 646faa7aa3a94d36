/-
  Phrasebook.Proofs.Context.Eager
  ────────────────────────────────
  **TIERS THAT ARE ALL LOADED AT ONCE.**

  What a context means, without laziness: for every `k`, tier `k` has the
  locales but for the first `k`, and all resources, in order; a lookup is
  answered by the first tier that has the entity.  Nothing here depends on
  what has been asked before:

      tiers, logs      —  every tier, and what is seen of loading it
      answer           —  the answer to a step
      ask_eq_finding   —  that to a lookup is the answer of what a search for
                          the entity comes to
      reach            —  the last tier that is needed for it
-/
import Phrasebook.Context.Step
import Phrasebook.Proofs.Context.Tier

namespace Phrasebook

/-- The settings of every tier: all locales, all but the first, and so on. -/
def Settings.tails (s : Settings) : List Settings :=
  (List.range (max 1 s.locales.length)).map fun k => { s with locales := s.locales.drop k }

theorem Settings.tails_eq (s : Settings) : s.tails = s :: s.fallbacks := by
  refine List.ext_getElem? fun k => ?_
  unfold tails
  rw [List.getElem?_map]
  cases k with
  | zero =>
    rw [List.getElem?_range (by omega)]
    rfl
  | succ k =>
    rw [List.getElem?_cons_succ, fallbacks_getElem?]
    by_cases hk : k + 1 < s.locales.length
    · rw [if_pos hk, List.getElem?_range (by omega)]
      rfl
    · rw [if_neg hk, List.getElem?_eq_none (by rw [List.length_range]; omega)]
      rfl

/-- The level that a step is put to. -/
def Step.level : Step → Nat
  | .add _ | .addPending _ | .freeze | .freezeNow => 0
  | .summary level | .ids level | .get level _ _ | .getAttribute level _ _ _
  | .getAttributes level _ _ | .getEntity level _ _ => level

/-- The entity that a step looks up. -/
def Step.sought : Step → Option String
  | .add _ | .addPending _ | .freeze | .freezeNow | .summary _ | .ids _ => none
  | .get _ id _ | .getAttribute _ id _ _ | .getAttributes _ id _ | .getEntity _ id _ => some id

/-- May callers ask the tier for an entity with this name? -/
def Tier.has (id : String) (tier : Tier) : Bool :=
  (tier.publicEntity? id).isSome

/-! ## §1. Every tier. -/

/-- What all tiers are loaded from: the answers to reads, what the tiers have
in common, and the resources. -/
structure Supply where
  answers : String → Reading
  around : Surroundings
  uris : List String

namespace Supply

variable (supply : Supply) (settings : Settings)

/-- How a resource is loaded with these settings. -/
def loaded (uri : String) : Loader.Loaded × Log :=
  ((supply.around.loader settings).load uri).run supply.answers

/-- The tier with these settings. -/
def tier : Tier :=
  .compiled supply.around settings supply.uris
    (supply.uris.map fun uri => (supply.loaded settings uri).1)

/-- What is seen of loading the tier. -/
def tierLog : Log :=
  (supply.uris.flatMap fun uri => (supply.loaded settings uri).2) ++ [.event .ready]

/-- Every tier. -/
def tiers : List Tier :=
  settings.tails.map supply.tier

/-- What is seen of loading each of them. -/
def logs : List Log :=
  settings.tails.map supply.tierLog

end Supply

namespace Eager

open Phrasebook.Context

/-! ## §2. Answers. -/

variable {α : Type}

/-- What the tier answers to a question about an entity, if it defines one with
this name that is not local.  The entity is evaluated with the definitions and
the globals of the tier. -/
def answerIn (host : Host) (id : String) (question : Question α) (tier : Tier) :
    Option (Except EvalError α) :=
  match tier.registry.findEntity? id with
  | some e =>
    if e.it.isLocal then none else some (question ⟨tier.registry, tier.globals, host⟩ e.it)
  | none => none

/-- The answer to a question that is put to a level: that of the first tier
from there on which has one; if none has, the names of the last one are
suggested. -/
def ask (host : Host) (tiers : List Tier) (level : Nat) (id : String) (question : Question α) :
    Option (Except ContextError α) :=
  let here := tiers.drop level
  let answered := (here.findSome? (answerIn host id question)).or (here.getLast?.map fun last =>
    .error (.entityNotFound id (suggestions id last.registry.publicIds)))
  answered.map (Except.mapError ContextError.evaluation)

/-- What a search for an entity comes to: the first tier that has it, or the
last one. -/
def finding (id : String) (tiers : List Tier) : Option Finding :=
  (tiers.findSome? fun tier => (tier.publicEntity? id).map fun e => Finding.found e tier).or
    (tiers.getLast?.map .missed)

theorem answerIn_eq (host : Host) (id : String) (question : Question α) (tier : Tier) :
    answerIn host id question tier
      = (tier.publicEntity? id).map (question (tier.environment host)) := by
  unfold answerIn Tier.publicEntity?
  cases tier.registry.findEntity? id with
  | none => rfl
  | some e =>
    dsimp only
    cases e.it.isLocal <;> rfl

/-- An answer is that of what a search comes to. -/
theorem ask_eq_finding (host : Host) (tiers : List Tier) (level : Nat) (id : String)
    (question : Question α) :
    ask host tiers level id question
      = (finding id (tiers.drop level)).map fun f =>
        (f.answer host id question).mapError ContextError.evaluation := by
  have hanswered : (tiers.drop level).findSome? (answerIn host id question)
      = ((tiers.drop level).findSome? fun tier =>
          (tier.publicEntity? id).map fun e => Finding.found e tier).map
        fun f => f.answer host id question := by
    rw [List.map_findSome?]
    refine congrArg (fun f => List.findSome? f _) (funext fun tier => ?_)
    rw [answerIn_eq, Function.comp_apply, Option.map_map]
    rfl
  unfold ask finding
  dsimp only
  rw [hanswered]
  cases (tiers.drop level).findSome? fun tier =>
      (tier.publicEntity? id).map fun e => Finding.found e tier with
  | some f => rfl
  | none => cases (tiers.drop level).getLast? <;> rfl

/-- The answer to a step after freezing. -/
def answer (host : Host) (tiers : List Tier) : Step → Answer
  | .add _ | .addPending _ | .freeze | .freezeNow => .refused .alreadyFrozen
  | .summary level => (tiers[level]?.map fun tier => .summary (.ofTier tier)).getD .noLevel
  | .ids level => answerOf .names (tiers[level]?.map fun tier => .ok tier.publicIds)
  | .get level id data => answerOf .text (ask host tiers level id (Question.text data))
  | .getAttribute level id name data =>
    answerOf .value (ask host tiers level id (Question.attributeValue data name))
  | .getAttributes level id data =>
    answerOf .attributes (ask host tiers level id (Question.attributeValues data))
  | .getEntity level id data => answerOf .entity (ask host tiers level id (Question.whole data))

/-- How many tiers a search goes down: to the first that has the entity, or to
the last. -/
def further (id : String) (tiers : List Tier) : Nat :=
  min (tiers.findIdx (Tier.has id)) (tiers.length - 1)

/-- How far a step goes down: to its level, and then as far as its search, but
not beyond the last tier. -/
def reach (tiers : List Tier) (s : Step) : Nat :=
  min (s.level + s.sought.elim 0 fun id => further id (tiers.drop s.level)) (tiers.length - 1)

/-- How far several steps go down. -/
def reachAll (tiers : List Tier) (ss : List Step) : Nat :=
  (ss.map (reach tiers)).foldr max 0

end Eager

end Phrasebook
