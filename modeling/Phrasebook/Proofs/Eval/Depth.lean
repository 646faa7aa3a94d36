/-
  Phrasebook.Proofs.Eval.Depth
  ────────────────────────────────
  **THE LIMIT ON THE DEPTH ONLY CUTS OFF.**

  Nothing in an expression looks at the depth or catches an error, so a
  scope where more levels may be opened gives the same results, and more of
  them:

      Truncates         —  the same result, unless it is `tooDeep`
      within_truncates  —  fewer levels, below more levels
      limit_only_cuts_off
                        —  what this says of every expression, and of a
                           reference that is placed in a text
-/
import Phrasebook.Proofs.Eval.Respect

namespace Phrasebook

variable {α β : Type}

/-! ## §1. Results that are cut off. -/

/-- The first result is the second one, unless it is cut off by the depth. -/
def Truncates (x y : Except EvalError α) : Prop :=
  x = .error .tooDeep ∨ x = y

namespace Truncates

theorem refl (x : Except EvalError α) : Truncates x x := .inr rfl

theorem tooDeep (y : Except EvalError α) : Truncates (.error .tooDeep) y := .inl rfl

/-- An error ends a computation, whatever would come after it. -/
theorem bind {x y : Except EvalError α} (first : Truncates x y) {f g : α → Except EvalError β}
    (next : ∀ a, Truncates (f a) (g a)) : Truncates (x >>= f) (y >>= g) := by
  cases first with
  | inl hdeep =>
    rw [hdeep]
    exact .tooDeep _
  | inr heq =>
    rw [heq]
    cases y with
    | error e => exact .refl _
    | ok a => exact next a

theorem map {x y : Except EvalError α} (h : Truncates x y) (f : α → β) :
    Truncates (x.map f) (y.map f) := by
  cases h with
  | inl hdeep =>
    rw [hdeep]
    exact .tooDeep _
  | inr heq =>
    rw [heq]
    exact .refl _

end Truncates

/-- Evaluation respects it, in every environment. -/
def truncation : Congruence where
  rel := Truncates
  same _ := Truncates.refl _
  bind first next := Truncates.bind first next

theorem truncation_holds (env : Environment) : truncation.Holds env env :=
  ⟨fun _ => Truncates.refl _, fun _ => rfl, fun _ _ _ => Truncates.refl _⟩

/-! ## §2. More levels, and more entities in a row. -/

/-- Fewer entities in a row, in a scope that opens fewer of them. -/
theorem follow_truncates {lower upper : Scope} (scopes : truncation.Scopes lower upper) {n m : Nat}
    (h : n ≤ m) (v : Value) : Truncates (lower.follow n v) (upper.follow m v) := by
  induction n generalizing m v with
  | zero => exact .tooDeep _
  | succ n ih =>
    obtain ⟨m, rfl⟩ : ∃ k, m = k + 1 := ⟨m - 1, by omega⟩
    cases v with
    | entity e => exact Truncates.bind (scopes.value e.it) fun w => ih (by omega) w
    | _ => exact .refl _

variable (env : Environment) (data : Bindings)

/-- Where nothing can be opened, there still is the error of an attribute
that does not exist. -/
theorem above_none_truncates (upper : Scope) :
    truncation.Scopes (Scope.above env data none) (Scope.above env data (some upper)) where
  value _ := Truncates.tooDeep _
  select _ _ := Truncates.tooDeep _
  attributeOf e name := by
    simp only [Scope.above]
    cases e.attribute? name with
    | none => exact Truncates.refl _
    | some f => exact Truncates.tooDeep _
  invoke _ _ := Truncates.tooDeep _

theorem within_truncates {n m : Nat} (h : n ≤ m) :
    truncation.Scopes (Scope.within env data n) (Scope.within env data m) := by
  induction n generalizing m with
  | zero =>
    cases m with
    | zero =>
      exact ⟨fun _ => Truncates.refl _, fun _ _ => Truncates.refl _,
        fun _ _ => Truncates.refl _, fun _ _ => Truncates.refl _⟩
    | succ m => exact above_none_truncates env data _
  | succ n ih =>
    -- one level is taken off both scopes, and put back on top of related ones
    obtain ⟨m, rfl⟩ : ∃ k, m = k + 1 := ⟨m - 1, by omega⟩
    exact above_respects data (ih (by omega)) (truncation_holds env)

/-! ## §3. The limit. -/

/-- A placed reference is opened one level further down, with one entity
less in a row. -/
theorem get_placed {a : Stamped Entity} {name : String}
    (hname : env.registry.find? name = some (.entity a)) {b : Entity} (hindex : b.index = [])
    (hvalue : b.value = some (.template [.name name])) :
    b.get env data
      = ((Scope.within env data (maxDepth - 1)).value a.it
          >>= (Scope.within env data (maxDepth - 1)).follow (maxDepth - 1)).map
            fun v => .text v.display := by
  have hreference : env.reference name = .ok (.entity a) := by
    unfold Environment.reference
    rw [hname]
  have hplaced : eval env data (Scope.within env data (maxDepth - 1)) .entity [] (.name name)
      = .ok (.entity a) := hreference
  have hopened : b.get env data
      = (evalRendered env data (Scope.within env data (maxDepth - 1)) .entity [.name name]
          >>= fun values => pure (.text (String.join (Value.displays values))))
        >>= (Scope.within env data maxDepth).render := by
    obtain ⟨id, isLocal, value, index, attributes⟩ := b
    subst hindex
    subst hvalue
    rfl
  rw [hopened, evalRendered, hplaced]
  show ((_ >>= (Scope.within env data (maxDepth - 1)).follow (maxDepth - 1)) >>= _) >>= _ >>= _ = _
  cases (Scope.within env data (maxDepth - 1)).value a.it
    >>= (Scope.within env data (maxDepth - 1)).follow (maxDepth - 1) with
  | error x => rfl
  | ok v =>
    show Except.ok (Value.text ("" ++ v.display)) = Except.ok (Value.text v.display)
    rw [String.empty_append]

/-- A scope where fewer levels may be opened gives the same results, unless
it is `tooDeep`; and so an entity that places another one shows what that one
displays, or fails like it, unless the one level more is too deep. -/
theorem limit_only_cuts_off {n m : Nat} (h : n ≤ m) :
    (∀ frame path e, Truncates (eval env data (Scope.within env data n) frame path e)
        (eval env data (Scope.within env data m) frame path e))
      ∧ (∀ e, Truncates ((Scope.within env data n).value e) ((Scope.within env data m).value e))
      ∧ (∀ e key, Truncates ((Scope.within env data n).select e key)
          ((Scope.within env data m).select e key))
      ∧ (∀ e name, Truncates ((Scope.within env data n).attributeOf e name)
          ((Scope.within env data m).attributeOf e name))
      ∧ (∀ macroDef arguments, Truncates ((Scope.within env data n).invoke macroDef arguments)
          ((Scope.within env data m).invoke macroDef arguments))
      ∧ ∀ (a : Stamped Entity) (b : Entity) (name : String),
          env.registry.find? name = some (.entity a) → b.index = [] →
          b.value = some (.template [.name name]) →
          Truncates (b.get env data) ((a.it.get env data).map fun v => .text v.display) := by
  have hscopes := within_truncates env data h
  refine ⟨fun frame path e => eval_respects hscopes (truncation_holds env) path e, hscopes.value,
    hscopes.select, hscopes.attributeOf, hscopes.invoke, ?_⟩
  intro a b name hname hindex hvalue
  have hlower := within_truncates env data (Nat.sub_le maxDepth 1)
  rw [get_placed env data hname hindex hvalue]
  -- the level and the entity that placing costs are what may be missing
  have hfollow := follow_truncates hlower (Nat.sub_le maxDepth 1)
  exact (Truncates.bind (hlower.value a.it) hfollow).map _

/-- A text that is placed by another entity; no level is enough for it where
none is left. -/
theorem limit_only_cuts_off_placed :
    let a : Entity := ⟨"a", false, some (.text "hi"), [], []⟩
    let b : Entity := ⟨"b", false, some (.template [.name "a"]), [], []⟩
    let env : Environment :=
      ⟨(Registry.empty.addEntries [.entity a, .entity b]).1, [], fun _ _ _ => .ok .absent⟩
    ((Scope.within env [] 0).value b = .error .tooDeep
        ∧ Truncates ((Scope.within env [] 0).value b) ((Scope.within env [] 2).value b))
      ∧ (env.registry.find? "a" = some (.entity ⟨0, a⟩) ∧ b.index = []
        ∧ b.value = some (.template [.name "a"]))
      ∧ Truncates (b.get env []) ((a.get env []).map fun v => .text v.display)
      ∧ (a.get env []).map (fun v => Value.text v.display) = .ok (.text "hi")
      ∧ b.get env [] = .ok (.text "hi") := by
  intro a b env
  have hname : env.registry.find? "a" = some (.entity ⟨0, a⟩) := rfl
  have hlimit := limit_only_cuts_off env [] (Nat.zero_le 2)
  exact ⟨⟨rfl, hlimit.2.1 b⟩, ⟨hname, rfl, rfl⟩,
    hlimit.2.2.2.2.2 ⟨0, a⟩ b "a" hname rfl rfl, rfl, rfl⟩

end Phrasebook
