/-
  Phrasebook.Proofs.Eval.Respect
  ────────────────────────────────
  **WHAT EVALUATION RESPECTS.**

  An evaluation only ever puts one computation after another: it never looks
  at an error, and never at the depth.  So every relation between results
  that holds of the references in two environments, and of what the host
  program does there, and is kept when one computation follows another, holds
  of the evaluations in two scopes that are related:

      Congruence       —  such a relation
      eval_respects    —  by one mutual induction on the expression
      within_respects  —  the scopes of every depth
      Entity.get_respects … Macro.call_respects
                       —  all that a caller may ask
-/
import Phrasebook.Eval.Lookup

namespace Phrasebook

variable {α β : Type}

theorem exists_of_bind_ok {x : Except EvalError α} {f : α → Except EvalError β} {b : β}
    (h : x >>= f = .ok b) : ∃ a, x = .ok a ∧ f a = .ok b := by
  cases x with
  | error e => exact nomatch h
  | ok a => exact ⟨a, rfl, h⟩

/-- Two computations in a row fail in the first one, or else in the second. -/
theorem bind_eq_error_iff {x : Except EvalError α} {f : α → Except EvalError β} {e : EvalError} :
    x >>= f = .error e ↔ x = .error e ∨ ∃ a, x = .ok a ∧ f a = .error e := by
  cases x with
  | error e' =>
    show Except.error e' = Except.error e ↔ _
    rw [Except.error.injEq, Except.error.injEq]
    exact ⟨.inl, fun h => h.resolve_right fun ⟨_, h, _⟩ => nomatch h⟩
  | ok a =>
    refine ⟨fun h => .inr ⟨a, rfl, h⟩, fun h => ?_⟩
    obtain ⟨b, hb, h⟩ := h.resolve_left nofun
    exact Except.ok.inj hb ▸ h

/-! ## §1. Results without a missing name. -/

/-- The result is not that a name is missing. -/
def Quiet (x : Except EvalError α) : Prop :=
  ∀ name near, x ≠ .error (.entityNotFound name near)

theorem quiet_ok (a : α) : Quiet (.ok a : Except EvalError α) :=
  fun _ _ h => nomatch h

theorem Arithmetic.apply_quiet (f : Arithmetic) (op : BinaryOp) (l r : Value) :
    Quiet (f.apply op l r) := by
  unfold Arithmetic.apply
  dsimp only
  split
  · exact quiet_ok _
  · split
    · exact quiet_ok _
    · exact fun _ _ h => nomatch h

theorem addValues_quiet (l r : Value) : Quiet (addValues l r) := by
  unfold addValues
  split
  · exact quiet_ok _
  · exact quiet_ok _
  · exact Arithmetic.apply_quiet _ _ _ _

theorem divideValues_quiet (f : Arithmetic) (op : BinaryOp) (l r : Value) :
    Quiet (divideValues f op l r) := by
  unfold divideValues
  split
  · exact fun _ _ h => nomatch h
  · exact f.apply_quiet op l r

theorem OrderTest.apply_quiet (t : OrderTest) (op : BinaryOp) (l r : Value) :
    Quiet (t.apply op l r) := by
  unfold OrderTest.apply
  split
  · exact quiet_ok _
  · split
    · exact quiet_ok _
    · exact fun _ _ h => nomatch h

theorem BinaryOp.apply_quiet (op : BinaryOp) (l r : Value) : Quiet (op.apply l r) := by
  cases op with
  | add => exact addValues_quiet l r
  | subtract | multiply => exact Arithmetic.apply_quiet _ _ l r
  | divide | remainder => exact divideValues_quiet _ _ l r
  | equal | notEqual => exact quiet_ok _
  | less | greater | lessEqual | greaterEqual => exact OrderTest.apply_quiet _ _ l r

theorem UnaryOp.apply_quiet (op : UnaryOp) (v : Value) : Quiet (op.apply v) := by
  unfold UnaryOp.apply
  split
  · exact quiet_ok _
  · exact quiet_ok _
  · exact fun _ _ h => nomatch h
  · split <;> exact quiet_ok _
  · exact quiet_ok _
  · exact fun _ _ h => nomatch h
  · exact quiet_ok _

theorem propertyOf_quiet (base key : Value) : Quiet (propertyOf base key) := by
  unfold propertyOf
  dsimp only
  split
  · exact quiet_ok _
  · exact fun _ _ h => nomatch h

/-! ## §2. Relations between results. -/

/-- A relation between results that is kept when one computation follows
another. -/
structure Congruence where
  rel : ∀ {α : Type}, Except EvalError α → Except EvalError α → Prop
  same : ∀ {α : Type} {x : Except EvalError α}, Quiet x → rel x x
  bind : ∀ {α β : Type} {x y : Except EvalError α} {f g : α → Except EvalError β},
    rel x y → (∀ a, rel (f a) (g a)) → rel (x >>= f) (y >>= g)

namespace Congruence

variable (R : Congruence)

theorem ok (a : α) : R.rel (.ok a : Except EvalError α) (.ok a) :=
  R.same (quiet_ok a)

variable {R} in
/-- The same step without a missing name after both results. -/
theorem andThen {x y : Except EvalError α} (first : R.rel x y) {f : α → Except EvalError β}
    (hf : ∀ a, Quiet (f a)) : R.rel (x >>= f) (y >>= f) :=
  R.bind first fun a => R.same (hf a)

/-- Two scopes open references to related results. -/
structure Scopes (lower upper : Scope) : Prop where
  value : ∀ e, R.rel (lower.value e) (upper.value e)
  select : ∀ e key, R.rel (lower.select e key) (upper.select e key)
  attributeOf : ∀ e name, R.rel (lower.attributeOf e name) (upper.attributeOf e name)
  invoke : ∀ m arguments, R.rel (lower.invoke m arguments) (upper.invoke m arguments)

/-- The relation holds of the references in two environments, and of what the
host program does there; the globals are the same. -/
structure Holds (env other : Environment) : Prop where
  reference : ∀ name, R.rel (env.reference name) (other.reference name)
  global : ∀ name, env.global name = other.global name
  host : ∀ name stamp arguments,
    R.rel (env.host name stamp arguments) (other.host name stamp arguments)

end Congruence

section

variable {R : Congruence} {lower upper : Scope} {env other : Environment} {data : Bindings}
  {frame : Frame}

open Congruence

/-! ## §3. References in two scopes. -/

theorem follow_respects (scopes : R.Scopes lower upper) (n : Nat) (v : Value) :
    R.rel (lower.follow n v) (upper.follow n v) := by
  induction n generalizing v with
  | zero => exact R.same fun _ _ h => nomatch h
  | succ n ih =>
    cases v with
    | entity e => exact R.bind (scopes.value e.it) ih
    | _ => exact R.ok _

theorem render_respects (scopes : R.Scopes lower upper) (v : Value) :
    R.rel (lower.render v) (upper.render v) :=
  follow_respects scopes maxDepth v

theorem renderAll_respects (scopes : R.Scopes lower upper) (vs : List Value) :
    R.rel (lower.renderAll vs) (upper.renderAll vs) := by
  induction vs with
  | nil => exact R.ok _
  | cons v vs ih =>
    exact R.bind (render_respects scopes v) fun w => andThen ih fun _ => quiet_ok _

theorem callValue_respects (scopes : R.Scopes lower upper) (holds : R.Holds env other)
    (callee : Value) (arguments : List Value) :
    R.rel (callValue env.host lower callee arguments)
      (callValue other.host upper callee arguments) := by
  cases callee with
  | macroRef m => exact scopes.invoke m.it arguments
  | function f =>
    refine R.bind (renderAll_respects scopes arguments) fun values => ?_
    cases f with
    | plural locale => exact R.ok _
    | host name stamp => exact holds.host name stamp values
  | _ => exact R.same fun _ _ h => nomatch h

theorem propertyValue_respects (scopes : R.Scopes lower upper) (base key : Value) :
    R.rel (propertyValue lower base key) (propertyValue upper base key) := by
  unfold propertyValue
  split
  · exact scopes.select _ key
  · exact R.same (propertyOf_quiet _ key)

/-! ## §4. Expressions in two scopes. -/

-- by induction on the expression, with its lists and keys: an operand is evaluated, then
-- rendered, and a computation that follows related results is related
mutual
theorem eval_respects (scopes : R.Scopes lower upper) (holds : R.Holds env other) (path : List Value)
    (e : Expr) : R.rel (eval env data lower frame path e) (eval other data upper frame path e) := by
  cases e with
  | name id =>
    unfold eval
    split
    · exact R.ok _
    · exact holds.reference id
  | var id => exact R.ok _
  | global id =>
    unfold eval
    rw [holds.global]
    exact R.ok _
  | number n => exact R.ok _
  | text s => exact R.ok _
  | template parts =>
    exact andThen (evalRendered_respects scopes holds parts) fun _ => quiet_ok _
  | array elements default =>
    exact andThen (evalAll_respects scopes holds path.tail elements) fun _ => quiet_ok _
  | hash items default =>
    exact andThen (evalItems_respects scopes holds path.tail items) fun _ => quiet_ok _
  | binary op left right =>
    refine R.bind (eval_respects scopes holds [] left) fun l => ?_
    refine R.bind (render_respects scopes l) fun l => ?_
    refine R.bind (eval_respects scopes holds [] right) fun r => ?_
    exact andThen (render_respects scopes r) fun r => op.apply_quiet l r
  | logical op left right =>
    refine R.bind (eval_respects scopes holds [] left) fun l => ?_
    refine R.bind (render_respects scopes l) fun l => ?_
    -- both sides go the same way, since they go on with one value
    by_cases hdecided : op.isDecidedBy l
    · simp only [if_pos hdecided]
      exact R.ok _
    · simp only [if_neg hdecided]
      exact R.bind (eval_respects scopes holds [] right) (render_respects scopes)
  | unary op operand =>
    refine R.bind (eval_respects scopes holds [] operand) fun v => ?_
    exact andThen (render_respects scopes v) op.apply_quiet
  | conditional test consequent alternate =>
    refine R.bind (eval_respects scopes holds [] test) fun t => ?_
    refine R.bind (render_respects scopes t) fun t => ?_
    by_cases htrue : t.isTruthy
    · simp only [if_pos htrue]
      exact eval_respects scopes holds path consequent
    · simp only [if_neg htrue]
      exact eval_respects scopes holds path alternate
  | call callee arguments =>
    refine R.bind (eval_respects scopes holds [] callee) fun f => ?_
    exact R.bind (evalAll_respects scopes holds [] arguments) (callValue_respects scopes holds f)
  | property base key =>
    refine R.bind (eval_respects scopes holds [] base) fun b => ?_
    exact R.bind (evalKey_respects scopes holds key) (propertyValue_respects scopes b)
  | «attribute» base key =>
    refine R.bind (eval_respects scopes holds [] base) fun b => ?_
    -- an attribute of anything but an entity is the same error in every scope
    cases b with
    | entity b =>
      exact R.bind (evalKey_respects scopes holds key) fun k => scopes.attributeOf b.it k.display
    | _ => exact R.same fun _ _ h => nomatch h
  | paren inner => exact eval_respects scopes holds path inner
  termination_by structural e

theorem evalAll_respects (scopes : R.Scopes lower upper) (holds : R.Holds env other)
    (path : List Value) (es : List Expr) :
    R.rel (evalAll env data lower frame path es) (evalAll other data upper frame path es) := by
  cases es with
  | nil => exact R.ok _
  | cons e es =>
    refine R.bind (eval_respects scopes holds path e) fun v => ?_
    exact andThen (evalAll_respects scopes holds path es) fun _ => quiet_ok _
  termination_by structural es

theorem evalRendered_respects (scopes : R.Scopes lower upper) (holds : R.Holds env other)
    (es : List Expr) :
    R.rel (evalRendered env data lower frame es) (evalRendered other data upper frame es) := by
  cases es with
  | nil => exact R.ok _
  | cons e es =>
    refine R.bind (eval_respects scopes holds [] e) fun v => ?_
    refine R.bind (render_respects scopes v) fun v => ?_
    exact andThen (evalRendered_respects scopes holds es) fun _ => quiet_ok _
  termination_by structural es

theorem evalItems_respects (scopes : R.Scopes lower upper) (holds : R.Holds env other)
    (path : List Value) (items : List (Field Expr)) :
    R.rel (evalItems env data lower frame path items)
      (evalItems other data upper frame path items) := by
  cases items with
  | nil => exact R.ok _
  | cons item items =>
    obtain ⟨key, e, _⟩ := item
    refine R.bind (eval_respects scopes holds path e) fun v => ?_
    exact andThen (evalItems_respects scopes holds path items) fun _ => quiet_ok _
  termination_by structural items

theorem evalKey_respects (scopes : R.Scopes lower upper) (holds : R.Holds env other)
    (key : Accessor Expr) :
    R.rel (evalKey env data lower frame key) (evalKey other data upper frame key) := by
  cases key with
  | named name => exact R.ok _
  | computed e => exact R.bind (eval_respects scopes holds [] e) (render_respects scopes)
  termination_by structural key
end

/-! ## §5. One level more. -/

theorem indexPath_respects (scopes : R.Scopes lower upper) (holds : R.Holds env other) (e : Entity) :
    R.rel (indexPath env data lower e) (indexPath other data upper e) :=
  evalRendered_respects scopes holds e.index

theorem valueAlong_respects (scopes : R.Scopes lower upper) (holds : R.Holds env other)
    (path : List Value) (e : Entity) :
    R.rel (valueAlong env data lower path e) (valueAlong other data upper path e) := by
  unfold valueAlong
  cases e.value with
  | none => exact R.ok _
  | some v => exact eval_respects scopes holds path v

end

/-- Above related scopes there are related scopes. -/
theorem above_respects {R : Congruence} {lower upper : Scope} {env other : Environment}
    (data : Bindings) (scopes : R.Scopes lower upper) (holds : R.Holds env other) :
    R.Scopes (Scope.above env data (some lower)) (Scope.above other data (some upper)) where
  value e := R.bind (indexPath_respects scopes holds e) fun path =>
    valueAlong_respects scopes holds path e
  select e key := valueAlong_respects scopes holds [key] e
  attributeOf e name := by
    simp only [Scope.above]
    cases e.attribute? name with
    | none => exact R.same fun _ _ h => nomatch h
    | some f =>
      exact R.bind (indexPath_respects scopes holds e) fun path =>
        eval_respects scopes holds path f.value
  invoke m _ := eval_respects scopes holds [] m.body

/-! ## §6. All that callers may ask. -/

section

variable {R : Congruence} {env other : Environment} (data : Bindings)

/-- However many levels may be opened, references lead to related results. -/
theorem within_respects (holds : R.Holds env other) (n : Nat) :
    R.Scopes (Scope.within env data n) (Scope.within other data n) := by
  induction n with
  | zero =>
    -- nothing is opened at the last level, so no name is looked up
    have hdeep : ∀ {α : Type}, R.rel (.error .tooDeep : Except EvalError α) (.error .tooDeep) :=
      R.same fun _ _ h => EvalError.noConfusion (Except.error.inj h)
    refine ⟨fun _ => hdeep, fun _ _ => hdeep, fun e name => ?_, fun _ _ => hdeep⟩
    simp only [Scope.within, Scope.above]
    cases e.attribute? name with
    | none => exact R.same fun _ _ h => EvalError.noConfusion (Except.error.inj h)
    | some f => exact hdeep
  | succ n ih => exact above_respects data ih holds

namespace Entity

theorem get_respects (holds : R.Holds env other) (e : Entity) :
    R.rel (e.get env data) (e.get other data) := by
  have hscopes := within_respects data holds maxDepth
  exact R.bind (hscopes.value e) (render_respects hscopes)

theorem getAttribute_respects (holds : R.Holds env other) (e : Entity) (name : String) :
    R.rel (e.getAttribute env data name) (e.getAttribute other data name) := by
  have hscopes := within_respects data holds maxDepth
  exact R.bind (hscopes.attributeOf e name) (render_respects hscopes)

theorem attributeValues_respects {lower upper : Scope} (scopes : R.Scopes lower upper)
    (holds : R.Holds env other) (path : List Value) (fs : List (Field Expr)) :
    R.rel (attributeValues env data lower path fs) (attributeValues other data upper path fs) := by
  induction fs with
  | nil => exact R.ok _
  | cons f fs ih =>
    refine R.bind (eval_respects scopes holds path f.value) fun v => ?_
    refine R.bind (render_respects scopes v) fun v => ?_
    exact Congruence.andThen ih fun _ => quiet_ok _

theorem getAttributes_respects (holds : R.Holds env other) (e : Entity) :
    R.rel (e.getAttributes env data) (e.getAttributes other data) := by
  have hscopes := within_respects data holds (maxDepth - 1)
  refine R.bind (indexPath_respects hscopes holds e) fun path => ?_
  exact attributeValues_respects data hscopes holds path e.publicAttributes

theorem getEntity_respects (holds : R.Holds env other) (e : Entity) :
    R.rel (e.getEntity env data) (e.getEntity other data) := by
  refine R.bind (e.get_respects data holds) fun v => ?_
  exact Congruence.andThen (e.getAttributes_respects data holds) fun _ => quiet_ok _

end Entity

theorem Macro.call_respects (holds : R.Holds env other) (m : Macro) (arguments : List Value) :
    R.rel (m.call env data arguments) (m.call other data arguments) := by
  have hscopes := within_respects data holds maxDepth
  exact R.bind (hscopes.invoke m arguments) (render_respects hscopes)

end

end Phrasebook
