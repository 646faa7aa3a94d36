/-
  Phrasebook.Proofs.Eval.Hygiene
  ────────────────────────────────
  **IT DOES NOT MATTER WHAT PARAMETERS ARE CALLED.**

  The parameters of a macro may be given other names, in its body as well as
  in its head, as long as no two become one and the body does not mention the
  new names already.  Whatever is called so elsewhere is none of its business:
  an entity, a global, what the caller passes, a key, the parameter of another
  macro.

      Expr.NewNames    —  new names for the parameters of an expression
      NewNames.renamed —  what it mentions is read as before
      parameters_are_hygienic
                       —  nothing changes; the parameters are what the macro
                          was given, and nothing else is
-/
import Phrasebook.Proofs.Eval.Rename

namespace Phrasebook

/-! ## §1. Bindings under other names. -/

namespace Bindings

/-- The bindings under other names. -/
def rename (σ : String → String) (bindings : Bindings) : Bindings :=
  bindings.map fun binding => (σ binding.1, binding.2)

/-- Just these names are bound. -/
def Binds (bindings : Bindings) (names : List String) : Prop :=
  ∀ name, name ∈ bindings.map Prod.fst ↔ name ∈ names

theorem find?_isSome_iff {name : String} {bindings : Bindings} :
    (find? name bindings).isSome = true ↔ name ∈ bindings.map Prod.fst := by
  induction bindings with
  | nil => exact iff_of_false Bool.false_ne_true List.not_mem_nil
  | cons head bindings ih =>
    obtain ⟨k, v⟩ := head
    show (if k = name then some v else find? name bindings).isSome = true ↔ _
    rw [List.map_cons, List.mem_cons, ← ih]
    by_cases hk : k = name
    · rw [if_pos hk]
      exact iff_of_true rfl (.inl hk.symm)
    · rw [if_neg hk]
      exact ⟨.inr, fun h => h.resolve_left (Ne.symm hk)⟩

/-- A name is found under its other name, if that is no other's. -/
theorem find?_rename {σ : String → String} {name : String} {bindings : Bindings}
    (h : ∀ k ∈ bindings.map Prod.fst, σ k = σ name → k = name) :
    find? (σ name) (bindings.rename σ) = find? name bindings := by
  induction bindings with
  | nil => rfl
  | cons head bindings ih =>
    obtain ⟨k, v⟩ := head
    obtain ⟨hhead, hbindings⟩ := List.forall_mem_cons.1 h
    show (if σ k = σ name then some v else find? (σ name) (rename σ bindings))
      = if k = name then some v else find? name bindings
    rw [ih hbindings]
    exact if_congr ⟨hhead, congrArg σ⟩ rfl rfl

namespace Binds

variable {bindings : Bindings} {names : List String} {name : String}

theorem exists_find? (h : bindings.Binds names) (hname : name ∈ names) :
    ∃ v, bindings.find? name = some v :=
  Option.isSome_iff_exists.1 (find?_isSome_iff.2 ((h name).2 hname))

theorem find?_eq_none (h : bindings.Binds names) (hname : name ∉ names) :
    bindings.find? name = none :=
  Option.not_isSome_iff_eq_none.1 (mt find?_isSome_iff.1 (mt (h name).1 hname))

theorem rename (h : bindings.Binds names) (σ : String → String) :
    (bindings.rename σ).Binds (names.map σ) := by
  intro name
  simp only [Bindings.rename, List.map_map, List.mem_map, Function.comp_apply]
  constructor
  · rintro ⟨binding, hb, rfl⟩
    exact ⟨binding.1, (h _).1 (List.mem_map_of_mem hb), rfl⟩
  · rintro ⟨k, hk, rfl⟩
    obtain ⟨binding, hb, rfl⟩ := List.mem_map.1 ((h k).2 hk)
    exact ⟨binding, hb, rfl⟩

end Binds

end Bindings

namespace Frame

variable {parameters : List String} {bindings : Bindings} {name : String}

/-- What is bound counts, whatever the caller passed. -/
theorem variableValue_bound {v : Value} (h : bindings.find? name = some v) (data : Bindings) :
    (Frame.mk parameters bindings).variableValue data name = v := by
  unfold variableValue
  dsimp only
  rw [h]
  rfl

theorem variableValue_unbound (h : bindings.find? name = none) (data : Bindings) :
    (Frame.mk parameters bindings).variableValue data name = (data.find? name).getD .absent := by
  unfold variableValue
  dsimp only
  rw [h]
  rfl

end Frame

/-! ## §2. The parameters of an expression. -/

/-- The name of a parameter, renamed; and any other name. -/
def newName (parameters : List String) (σ : String → String) (id : String) : String :=
  if id ∈ parameters then σ id else id

/-- New names for the parameters of an expression: no two become one, and the
expression mentions none of the new names. -/
structure Expr.NewNames (e : Expr) (parameters : List String) (σ : String → String) : Prop where
  injective : ∀ p ∈ parameters, ∀ q ∈ parameters, σ p = σ q → p = q
  unused : ∀ p ∈ parameters, ¬ e.Mentions (σ p)

section

variable {e : Expr} {parameters : List String} {σ : String → String} {bindings : Bindings}

/-- Whatever the expression mentions is read under its new name, be it a
parameter or not. -/
theorem Expr.NewNames.renamed (hσ : e.NewNames parameters σ) (hbinds : bindings.Binds parameters)
    (data : Bindings) :
    e.MentionsOnly (Frame.Renamed data (newName parameters σ) ⟨parameters, bindings⟩
      ⟨parameters.map σ, bindings.rename σ⟩) := by
  intro id hid
  by_cases hparameter : id ∈ parameters
  · have hnew : newName parameters σ id = σ id := if_pos hparameter
    obtain ⟨v, hv⟩ := hbinds.exists_find? hparameter
    have hv' : Bindings.find? (σ id) (bindings.rename σ) = some v := by
      rw [Bindings.find?_rename fun k hk => hσ.injective k ((hbinds k).1 hk) id hparameter, hv]
    refine ⟨?_, ?_, absurd hparameter⟩
    · rw [hnew]
      exact iff_of_true (List.mem_map_of_mem hparameter) hparameter
    · rw [hnew, Frame.variableValue_bound hv, Frame.variableValue_bound hv']
  · have hold : newName parameters σ id = id := if_neg hparameter
    -- no parameter is called so now: it is mentioned
    have hparameter' : id ∉ parameters.map σ := by
      intro hmem
      obtain ⟨p, hp, rfl⟩ := List.mem_map.1 hmem
      exact hσ.unused p hp hid
    refine ⟨?_, ?_, fun _ => hold⟩
    · rw [hold]
      exact iff_of_false hparameter' hparameter
    · rw [hold, Frame.variableValue_unbound (hbinds.find?_eq_none hparameter),
        Frame.variableValue_unbound ((hbinds.rename σ).find?_eq_none hparameter')]

/-- Without its parameters, what an expression mentions is read as outside of
macros. -/
theorem renamed_entity (hbinds : bindings.Binds parameters)
    (h : ∀ p ∈ parameters, ¬ e.Mentions p) (data : Bindings) :
    e.MentionsOnly (Frame.Renamed data id .entity ⟨parameters, bindings⟩) := by
  intro name hname
  have hparameter : name ∉ parameters := fun hp => h name hp hname
  refine ⟨iff_of_false hparameter List.not_mem_nil, ?_, fun _ => rfl⟩
  rw [id, Frame.variableValue_unbound (hbinds.find?_eq_none hparameter)]
  rfl

end

/-! ## §3. Calls. -/

/-- The macro with other names for its parameters. -/
def Macro.rename (σ : String → String) (m : Macro) : Macro :=
  { m with
    parameters := m.parameters.map σ
    body := m.body.rename (newName m.parameters σ) }

/-- With enough arguments, a call binds just the parameters. -/
theorem binds_call {parameters : List String} {arguments : List Value}
    (h : parameters.length ≤ arguments.length) :
    (Frame.call parameters arguments).locals.Binds parameters := by
  intro name
  show name ∈ (parameters.zip arguments).reverse.map Prod.fst ↔ _
  rw [List.map_reverse, List.mem_reverse, List.map_fst_zip h]

theorem call_rename (σ : String → String) (parameters : List String) (arguments : List Value) :
    Frame.call (parameters.map σ) arguments
      = ⟨parameters.map σ, (Frame.call parameters arguments).locals.rename σ⟩ := by
  show Frame.mk _ ((parameters.map σ).zip arguments).reverse
    = ⟨_, ((parameters.zip arguments).reverse).map _⟩
  rw [List.zip_map_left, List.map_reverse]
  rfl

/-- It makes no difference what the parameters of an expression are called. -/
structure Expr.Hygienic (e : Expr) (parameters : List String) (σ : String → String) : Prop where
  isSound : (e.rename (newName parameters σ)).isSound = e.isSound
  /-- At every depth, and whatever the names stand for elsewhere. -/
  eval_eq : ∀ bindings : Bindings, bindings.Binds parameters → ∀ env data n path,
    eval env data (Scope.within env data n) ⟨parameters.map σ, bindings.rename σ⟩ path
        (e.rename (newName parameters σ))
      = eval env data (Scope.within env data n) ⟨parameters, bindings⟩ path e
  /-- A call of a macro with this body, with an argument for each parameter,
  has the same result: from outside, and at every depth. -/
  call_eq : ∀ m : Macro, m.parameters = parameters → m.body = e →
    ∀ env data arguments, parameters.length ≤ arguments.length →
      (m.rename σ).call env data arguments = m.call env data arguments
        ∧ ∀ n, (Scope.within env data n).invoke (m.rename σ) arguments
          = (Scope.within env data n).invoke m arguments

/-- **Parameters may be called anything.**  With new names for its parameters
an expression has the same value, or fails with the same error.  A parameter
stands for what it is bound to, whatever else has its name; and nothing else
does: where no parameter is mentioned, there might as well be none. -/
theorem parameters_are_hygienic {e : Expr} {parameters : List String} {σ : String → String}
    (hσ : e.NewNames parameters σ) :
    e.Hygienic parameters σ
      ∧ (∀ bindings : Bindings, bindings.Binds parameters → ∀ p ∈ parameters,
          ∃ v, bindings.find? p = some v ∧ ∀ env data scope path,
            eval env data scope ⟨parameters, bindings⟩ path (.name p) = .ok v
              ∧ eval env data scope ⟨parameters, bindings⟩ path (.var p) = .ok v)
      ∧ ((∀ p ∈ parameters, ¬ e.Mentions p) →
          ∀ bindings : Bindings, bindings.Binds parameters → ∀ env data scope path,
            eval env data scope ⟨parameters, bindings⟩ path e
              = eval env data scope .entity path e) := by
  refine ⟨⟨e.isSound_rename _, fun bindings hbinds env data n path =>
    eval_rename path e (hσ.renamed hbinds data), ?_⟩, ?_, ?_⟩
  · rintro m rfl rfl env data arguments hlength
    refine Macro.calls_eq fun n => ?_
    show eval env data _ (Frame.call (m.parameters.map σ) arguments) [] _ = _
    rw [call_rename]
    exact eval_rename [] m.body (hσ.renamed (binds_call hlength) data)
  · intro bindings hbinds p hp
    obtain ⟨v, hv⟩ := hbinds.exists_find? hp
    refine ⟨v, hv, fun env data scope path => ⟨?_, ?_⟩⟩
    · rw [eval, if_pos hp, Frame.variableValue_bound hv]
    · rw [eval, Frame.variableValue_bound hv]
  · intro hnone bindings hbinds env data scope path
    have hsame : eval env data scope ⟨parameters, bindings⟩ path (e.rename id)
        = eval env data scope .entity path e :=
      eval_rename path e (renamed_entity hbinds hnone data)
    rwa [e.rename_id] at hsame

namespace Tag

def source : String :=
  "<price \"an entity\"> <shelf \x7ba: \"row\", price: \"a key\"\x7d>"

/-- Everything there is goes by the name of `price` too. -/
def env : Environment :=
  ⟨(Registry.empty.compile (Resource.salvage source).entries).1,
    [("a", .text "!"), ("price", .text "a global")], fun _ _ _ => .ok .absent⟩

def data : Bindings :=
  [("a", .text "from the caller"), ("price", .text "from the caller")]

/-- `a shelf.a $b@a`, with two parameters. -/
def tag : Expr :=
  .template [.name "a", .text " ", .property (.name "shelf") (.named "a"), .text " ", .var "b",
    .global "a"]

/-- New names for the parameters. -/
def names (id : String) : String :=
  if id = "a" then "price" else "count"

def given : Bindings :=
  [("b", .text "two"), ("a", .text "five")]

theorem tag_newNames : tag.NewNames ["a", "b"] names where
  injective := by decide
  unused := by
    simp [Expr.Mentions, Expr.children, tag, names, @Expr.within_iff _ (.template _),
      @Expr.within_iff _ (.property _ _), @Expr.within_iff _ (.name _),
      @Expr.within_iff _ (.var _), @Expr.within_iff _ (.global _), @Expr.within_iff _ (.text _)]

theorem given_binds : given.Binds ["a", "b"] := by
  intro name
  simp [given, or_comm]

/-- The parameter is mistaken for none of them, and none of them for it. -/
theorem tag_reads_alike :
    (tag.NewNames ["a", "b"] names ∧ given.Binds ["a", "b"])
      ∧ tag.rename (newName ["a", "b"] names)
        = .template [.name "price", .text " ", .property (.name "shelf") (.named "a"), .text " ",
          .var "count", .global "a"]
      ∧ given.rename names = [("count", .text "two"), ("price", .text "five")]
      ∧ eval env data (Scope.within env data maxDepth) ⟨["price", "count"], given.rename names⟩ []
          (tag.rename (newName ["a", "b"] names)) = .ok (.text "five row two!") := by
  obtain ⟨hhygienic, -⟩ := parameters_are_hygienic tag_newNames
  have hvalue : eval env data (Scope.within env data maxDepth) ⟨["a", "b"], given⟩ [] tag
      = .ok (.text "five row two!") := by
    cbv
  refine ⟨⟨tag_newNames, given_binds⟩, rfl, rfl, ?_⟩
  exact (hhygienic.eval_eq given given_binds env data maxDepth []).trans hvalue

end Tag

end Phrasebook
