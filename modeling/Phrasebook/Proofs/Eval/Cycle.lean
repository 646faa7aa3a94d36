/-
  Phrasebook.Proofs.Eval.Cycle
  ────────────────────────────────
  **CYCLES OF REFERENCES END IN AN ERROR.**

  A text that places an entity has no value before that entity has one, and
  all texts of a value are evaluated, selected or not.  So entities that place
  one another never have values, whatever else they place: at every depth they
  wait for one another one level further down, until no level is left.

      Entity.Places, Registry.Circular
                          —  names of entities that place one another
      value_fails         —  none of them has a value, at any depth
      value_fails_deep    —  without other reasons to fail, they are too deep
      cycles_end_in_errors
                          —  both, for what callers see
-/
import Mathlib.Data.Set.Defs
import Phrasebook.Proofs.Registry.Texts

namespace Phrasebook

/-! ## §1. Entities that place one another. -/

/-- Some text in the value of the entity, at any depth of its arrays and
hashes, places one of the names by itself. -/
def Entity.Places (e : Entity) (names : Set String) : Prop :=
  ∃ root ∈ e.value, ∃ parts, .template parts ∈ root.leaves
    ∧ ∃ id ∈ names, Expr.name id ∈ parts

/-- Each of the names is that of an entity that places one of them. -/
def Registry.Circular (r : Registry) (names : Set String) : Prop :=
  ∀ id ∈ names, ∃ e, r.findEntity? id = some e ∧ e.it.Places names

/-- The texts in the tree consist of literal text and of some of the names. -/
def Expr.PlacesOnly (root : Expr) (names : Set String) : Prop :=
  ∀ leaf ∈ root.leaves, (∃ s, leaf = .text s)
    ∨ ∃ parts, leaf = .template parts
      ∧ ∀ part ∈ parts, (∃ s, part = .text s) ∨ ∃ id ∈ names, part = .name id

/-- The entity has no index, and nothing in its value but literal text and
some of the names. -/
structure Entity.PlacesOnly (e : Entity) (names : Set String) : Prop where
  index : e.index = []
  value : ∀ root ∈ e.value, root.PlacesOnly names

/-! ## §2. Placed names. -/

section

variable {env : Environment} {data : Bindings} {scope : Scope} {e : Stamped Entity} {id : String}

/-- A name that is placed by itself is opened where it is placed. -/
theorem placed_eq (he : env.registry.findEntity? id = some e) :
    eval env data scope .entity [] (.name id) >>= scope.render
      = scope.value e.it >>= scope.follow (maxDepth - 1) := by
  have hreference : eval env data scope .entity [] (.name id) = .ok (.entity e) := by
    show env.reference id = _
    unfold Environment.reference
    rw [Registry.find?_of_findEntity? he]
  rw [hreference]
  rfl

theorem failureOf_evalRendered (frame : Frame) (es : List Expr) :
    failureOf (evalRendered env data scope frame es)
      = es.findSome? fun e => failureOf (eval env data scope frame [] e >>= scope.render) := by
  induction es with
  | nil => rfl
  | cons e es ih =>
    have hfirst : evalRendered env data scope frame (e :: es)
        = (eval env data scope frame [] e >>= scope.render)
          >>= fun w => evalRendered env data scope frame es >>= fun ws => pure (w :: ws) := by
      rw [evalRendered, bind_assoc]
    rw [hfirst, List.findSome?_cons]
    cases eval env data scope frame [] e >>= scope.render with
    | error x => rfl
    | ok w => exact (failureOf_map _ _).trans ih

/-- A text fails as the first of its parts that fails. -/
theorem failureOf_template (frame : Frame) (path : List Value) (parts : List Expr) :
    failureOf (eval env data scope frame path (.template parts))
      = parts.findSome? fun e => failureOf (eval env data scope frame [] e >>= scope.render) := by
  rw [eval, failureOf_map, failureOf_evalRendered]

end

/-! ## §3. Every depth. -/

section

variable {env : Environment} {names : Set String} {id : String} {e : Stamped Entity}

theorem Registry.Circular.places (h : env.registry.Circular names) (hid : id ∈ names)
    (he : env.registry.findEntity? id = some e) : e.it.Places names := by
  obtain ⟨e', he', hplaces⟩ := h id hid
  rwa [Option.some.inj (he.symm.trans he')]

/-- An entity is evaluated one level further down, text by text. -/
theorem value_succ_eq_error_iff (hwritten : e.it.Written) (data : Bindings) (n : Nat)
    {x : EvalError} {root : Expr} (hroot : e.it.value = some root) :
    (Scope.within env data (n + 1)).value e.it = .error x
      ↔ indexPath env data (Scope.within env data n) e.it = .error x
        ∨ (∃ path, indexPath env data (Scope.within env data n) e.it = .ok path)
          ∧ root.leaves.findSome? (fun leaf =>
            failureOf (eval env data (Scope.within env data n) .entity [] leaf)) = some x := by
  have hliteral := hwritten.value root hroot
  show (indexPath env data (Scope.within env data n) e.it >>= fun path =>
    valueAlong env data (Scope.within env data n) path e.it) = .error x ↔ _
  rw [bind_eq_error_iff, ← exists_and_right]
  refine or_congr_right (exists_congr fun path => and_congr_right fun _ => ?_)
  rw [valueAlong, hroot, ← failureOf_eq_some_iff,
    failureOf_eval env data _ _ hliteral.1 hliteral.2]

/-- None of the entities has a value, at any depth. -/
theorem value_fails (hr : env.registry.OfTexts) (hcircular : env.registry.Circular names)
    (data : Bindings) (n : Nat) (hid : id ∈ names) (he : env.registry.findEntity? id = some e) :
    ∃ x, (Scope.within env data n).value e.it = .error x := by
  -- by induction on the levels that are left, for all of the entities at once
  induction n generalizing id e with
  | zero => exact ⟨.tooDeep, rfl⟩
  | succ n ih =>
    obtain ⟨root, hroot, parts, hleaf, next, hnext, hpart⟩ := hcircular.places hid he
    obtain ⟨e', he', -⟩ := hcircular next hnext
    obtain ⟨y, hy⟩ := ih hnext he'
    cases hindex : indexPath env data (Scope.within env data n) e.it with
    | error x => exact ⟨x, (value_succ_eq_error_iff (hr.entity he) data n hroot).2 (.inl hindex)⟩
    | ok path =>
      cases hvalue : root.leaves.findSome? (fun leaf =>
          failureOf (eval env data (Scope.within env data n) .entity [] leaf)) with
      | some x =>
        refine ⟨x, (value_succ_eq_error_iff (hr.entity he) data n hroot).2 ?_⟩
        exact .inr ⟨⟨path, hindex⟩, hvalue⟩
      | none =>
        -- the text that places the next entity would have a value, and so would that entity
        have htext := List.findSome?_eq_none_iff.1 hvalue _ hleaf
        rw [failureOf_template, List.findSome?_eq_none_iff] at htext
        have hplaced := htext _ hpart
        rw [placed_eq he', hy] at hplaced
        exact nomatch hplaced

/-- Where nothing else can fail, they only fail because they are too deep. -/
theorem value_fails_deep (hr : env.registry.OfTexts) (hcircular : env.registry.Circular names)
    (honly : ∀ id ∈ names, ∀ e, env.registry.findEntity? id = some e → e.it.PlacesOnly names)
    (data : Bindings) (n : Nat) (hid : id ∈ names) (he : env.registry.findEntity? id = some e) :
    (Scope.within env data n).value e.it = .error .tooDeep := by
  induction n generalizing id e with
  | zero => rfl
  | succ n ih =>
    obtain ⟨x, hx⟩ := value_fails hr hcircular data (n + 1) hid he
    suffices hdeep : x = .tooDeep by rw [hx, hdeep]
    obtain ⟨root, hroot, -⟩ := hcircular.places hid he
    obtain ⟨hnoindex, hplaces⟩ := honly id hid e he
    have hindex : indexPath env data (Scope.within env data n) e.it = .ok [] := by
      rw [indexPath, hnoindex, evalRendered]
    rw [value_succ_eq_error_iff (hr.entity he) data n hroot, hindex] at hx
    simp only [reduceCtorEq, false_or] at hx
    -- the error is that of some text, and there of some name
    obtain ⟨leaf, hleaf, hfails⟩ := List.exists_of_findSome?_eq_some hx.2
    rcases hplaces root hroot leaf hleaf with ⟨s, rfl⟩ | ⟨parts, rfl, hparts⟩
    · exact absurd hfails (Option.some_ne_none x).symm
    · rw [failureOf_template] at hfails
      obtain ⟨part, hpart, hfails⟩ := List.exists_of_findSome?_eq_some hfails
      rcases hparts part hpart with ⟨s, rfl⟩ | ⟨next, hnext, rfl⟩
      · exact absurd hfails (Option.some_ne_none x).symm
      · obtain ⟨e', he', -⟩ := hcircular next hnext
        rw [placed_eq he', ih hnext he'] at hfails
        exact (Option.some.inj hfails).symm

end

/-- Entities that place one another never have values, whatever the caller
passes and whatever globals there are; and where there is nothing else that
could fail, the error is that they are too deep. -/
theorem cycles_end_in_errors {env : Environment} (hr : env.registry.OfTexts) {names : Set String}
    (hcircular : env.registry.Circular names) (data : Bindings) :
    (∀ id ∈ names, ∀ e, env.registry.findEntity? id = some e →
        ∃ x, e.it.get env data = .error x)
      ∧ ((∀ id ∈ names, ∀ e, env.registry.findEntity? id = some e → e.it.PlacesOnly names) →
        ∀ id ∈ names, ∀ e, env.registry.findEntity? id = some e →
          e.it.get env data = .error .tooDeep) := by
  refine ⟨fun id hid e he => ?_, fun honly id hid e he => ?_⟩
  · obtain ⟨x, hx⟩ := value_fails hr hcircular data maxDepth hid he
    refine ⟨x, ?_⟩
    show (Scope.within env data maxDepth).value e.it >>= _ = _
    rw [hx]
    rfl
  · show (Scope.within env data maxDepth).value e.it >>= _ = _
    rw [value_fails_deep hr hcircular honly data maxDepth hid he]
    rfl

namespace Echo

/-- Two entities that place one another, one of them in a variant that is
selected by no one. -/
def source : String :=
  "<call \"Who? \x7b\x7b answer \x7d\x7d\"> <answer [*\"I\", \"\x7b\x7b call \x7d\x7d\"]>"

def registry : Registry :=
  (Registry.empty.compile (Resource.salvage source).entries).1

theorem registry_ofTexts : registry.OfTexts :=
  .compile .empty fun _ he => ⟨source, .inr he⟩

def call : Stamped Entity :=
  ⟨0, ⟨"call", false, some (.template [.text "Who? ", .name "answer"]), [], []⟩⟩

def answer : Stamped Entity :=
  ⟨1, ⟨"answer", false, some (.array [.text "I", .template [.name "call"]] (some 0)), [], []⟩⟩

theorem find_call : registry.findEntity? "call" = some call := by
  cbv

theorem find_answer : registry.findEntity? "answer" = some answer := by
  cbv

/-- The names of the two. -/
def names : Set String :=
  {id | id = "call" ∨ id = "answer"}

theorem registry_circular : registry.Circular names := by
  rintro id (rfl | rfl)
  · exact ⟨call, find_call, _, rfl, _, List.mem_singleton_self _, "answer", .inr rfl,
      List.mem_cons_of_mem _ (List.mem_singleton_self _)⟩
  · exact ⟨answer, find_answer, _, rfl, _, List.mem_cons_of_mem _ (List.mem_singleton_self _),
      "call", .inl rfl, List.mem_singleton_self _⟩

theorem call_placesOnly : call.it.PlacesOnly names := by
  refine ⟨rfl, fun root hroot leaf hleaf => .inr ?_⟩
  obtain rfl := Option.some.inj hroot
  obtain rfl := List.mem_singleton.1 hleaf
  refine ⟨_, rfl, fun part hpart => ?_⟩
  rcases List.mem_cons.1 hpart with rfl | hpart
  · exact .inl ⟨_, rfl⟩
  · exact .inr ⟨"answer", .inr rfl, List.mem_singleton.1 hpart⟩

theorem answer_placesOnly : answer.it.PlacesOnly names := by
  refine ⟨rfl, fun root hroot leaf hleaf => ?_⟩
  obtain rfl := Option.some.inj hroot
  rcases List.mem_cons.1 hleaf with rfl | hleaf
  · exact .inl ⟨_, rfl⟩
  · obtain rfl := List.mem_singleton.1 hleaf
    exact .inr ⟨_, rfl, fun part hpart => .inr ⟨"call", .inl rfl, List.mem_singleton.1 hpart⟩⟩

/-- The default is a text of its own, but the other variant is evaluated with
it. -/
theorem echo_is_endless :
    let env : Environment := ⟨registry, [], fun _ _ _ => .ok .absent⟩
    (registry.OfTexts ∧ registry.Circular names ∧ call.it.PlacesOnly names
        ∧ answer.it.PlacesOnly names)
      ∧ (registry.findEntity? "call" = some call ∧ registry.findEntity? "answer" = some answer)
      ∧ call.it.get env [("answer", .text "I")] = .error .tooDeep
      ∧ answer.it.get env [("answer", .text "I")] = .error .tooDeep := by
  intro env
  have honly : ∀ id ∈ names, ∀ e, registry.findEntity? id = some e → e.it.PlacesOnly names := by
    rintro id (rfl | rfl) e he
    · exact Option.some.inj (find_call.symm.trans he) ▸ call_placesOnly
    · exact Option.some.inj (find_answer.symm.trans he) ▸ answer_placesOnly
  have hends := (@cycles_end_in_errors env registry_ofTexts names registry_circular
    [("answer", .text "I")]).2 honly
  exact ⟨⟨registry_ofTexts, registry_circular, call_placesOnly, answer_placesOnly⟩,
    ⟨find_call, find_answer⟩, hends "call" (.inl rfl) call find_call,
    hends "answer" (.inr rfl) answer find_answer⟩

end Echo

end Phrasebook
