/-
  Phrasebook.Proofs.Eval.Missing
  ────────────────────────────────
  **WHICH NAMES CAN BE MISSING.**

  Only a reference to a name without a definition fails with `entityNotFound`.
  Functions of the host program may fail with it as well, for any name they
  like:

      Environment.Explains   —  an error that is no other missing name
      Entity.get_explains … Entity.getEntity_explains
                             —  all that a caller may ask of an entity
-/
import Phrasebook.Proofs.Eval.Respect

namespace Phrasebook

variable {α : Type}

/-! ## §1. Explained errors. -/

/-- If the error is a missing name, the name has no definition, or the host
program has said so. -/
def Environment.Explains (env : Environment) (x : EvalError) : Prop :=
  ∀ name near, x = .entityNotFound name near → env.registry.find? name = none
    ∨ ∃ f stamp arguments, env.host f stamp arguments = .error (.entityNotFound name near)

/-- The result is no error that is not explained. -/
def Environment.Explained (env : Environment) (x : Except EvalError α) : Prop :=
  ∀ e, x = .error e → env.Explains e

theorem explained_of_quiet (env : Environment) {x : Except EvalError α} (h : Quiet x) :
    env.Explained x := by
  intro e he name near hname
  exact absurd (hname ▸ he) (h name near)

theorem explained_bind {env : Environment} {β : Type} {x : Except EvalError α}
    {f : α → Except EvalError β} (hx : env.Explained x) (hf : ∀ a, env.Explained (f a)) :
    env.Explained (x >>= f) := by
  cases x with
  | error e =>
    intro e' he'
    exact Except.error.inj he' ▸ hx e rfl
  | ok a => exact hf a

/-- Evaluation respects that errors are explained. -/
def explanation (env : Environment) : Congruence where
  rel x y := x = y ∧ env.Explained x
  same h := ⟨rfl, explained_of_quiet env h⟩
  bind first next := by
    obtain ⟨rfl, hfirst⟩ := first
    have hnext := funext fun a => (next a).1
    exact ⟨by rw [hnext], explained_bind hfirst fun a => (next a).2⟩

theorem explanation_holds (env : Environment) : (explanation env).Holds env env where
  reference name := by
    refine ⟨rfl, fun e he other near hother => ?_⟩
    unfold Environment.reference at he
    split at he
    · exact nomatch he
    · exact nomatch he
    · next hnone =>
      -- the name that is missing is the one that was looked up
      have hsame : EvalError.entityNotFound name _ = .entityNotFound other near :=
        (Except.error.inj he).trans hother
      cases hsame
      exact .inl hnone
  global _ := rfl
  host name stamp arguments := by
    refine ⟨rfl, fun e he other near hother => .inr ⟨name, stamp, arguments, ?_⟩⟩
    rw [he, hother]

/-! ## §2. All that callers may ask. -/

namespace Entity

variable (env : Environment) (data : Bindings) (e : Entity)

theorem get_explains : env.Explained (e.get env data) :=
  (e.get_respects data (explanation_holds env)).2

theorem getAttribute_explains (name : String) : env.Explained (e.getAttribute env data name) :=
  (e.getAttribute_respects data (explanation_holds env) name).2

theorem getAttributes_explains : env.Explained (e.getAttributes env data) :=
  (e.getAttributes_respects data (explanation_holds env)).2

theorem getEntity_explains : env.Explained (e.getEntity env data) :=
  (e.getEntity_respects data (explanation_holds env)).2

end Entity

end Phrasebook
