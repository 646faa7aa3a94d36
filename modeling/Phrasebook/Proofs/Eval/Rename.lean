/-
  Phrasebook.Proofs.Eval.Rename
  ────────────────────────────────
  **EXPRESSIONS WITH OTHER NAMES.**

  An expression depends on its frame only through the names and variables that
  it mentions.  They may be given other names, in a frame that reads the new
  ones as the old one reads the old ones:

      Expr.rename    —  other names for the names and variables
      Expr.Mentions  —  the names and variables that there are
      eval_rename    —  in frames that read them alike, the values are the same
      Macro.calls_eq —  and so are the results of calls
-/
import Phrasebook.Proofs.Eval.Walk

namespace Phrasebook

/-! ## §1. Other names. -/

namespace Expr

mutual
/-- The expression with other names for its names and variables.  Globals and
written keys keep theirs. -/
def rename (f : String → String) : Expr → Expr
  | .name id => .name (f id)
  | .var id => .var (f id)
  | .global id => .global id
  | .number n => .number n
  | .text s => .text s
  | .template parts => .template (renameAll f parts)
  | .array elements default => .array (renameAll f elements) default
  | .hash items default => .hash (renameItems f items) default
  | .binary op l r => .binary op (l.rename f) (r.rename f)
  | .logical op l r => .logical op (l.rename f) (r.rename f)
  | .unary op e => .unary op (e.rename f)
  | .conditional t c a => .conditional (t.rename f) (c.rename f) (a.rename f)
  | .call callee arguments => .call (callee.rename f) (renameAll f arguments)
  | .property b k => .property (b.rename f) (renameKey f k)
  | .attribute b k => .attribute (b.rename f) (renameKey f k)
  | .paren e => .paren (e.rename f)

/-- Each of several expressions with other names. -/
def renameAll (f : String → String) : List Expr → List Expr
  | [] => []
  | e :: es => e.rename f :: renameAll f es

/-- The value of each item with other names. -/
def renameItems (f : String → String) : List (Field Expr) → List (Field Expr)
  | [] => []
  | ⟨key, e, starred⟩ :: items => ⟨key, e.rename f, starred⟩ :: renameItems f items

/-- A key with other names, if it is computed. -/
def renameKey (f : String → String) : Accessor Expr → Accessor Expr
  | .named key => .named key
  | .computed e => .computed (e.rename f)
end

theorem canHaveAttribute_rename (f : String → String) (e : Expr) :
    (e.rename f).canHaveAttribute = e.canHaveAttribute := by
  cases e <;> rfl

mutual
theorem isSound_rename (f : String → String) (e : Expr) : (e.rename f).isSound = e.isSound := by
  cases e with
  | name id | var id | global id | number n | text s => rfl
  | template parts => rw [rename, isSound, isSound, areSound_renameAll f parts]
  | array elements default => rw [rename, isSound, isSound, areSound_renameAll f elements]
  | hash items default => rw [rename, isSound, isSound, areItemsSound_renameItems f items]
  | binary op l r | logical op l r =>
    rw [rename, isSound, isSound, isSound_rename f l, isSound_rename f r]
  | unary op e | paren e => rw [rename, isSound, isSound, isSound_rename f e]
  | conditional t c a =>
    rw [rename, isSound, isSound, isSound_rename f t, isSound_rename f c, isSound_rename f a]
  | call callee arguments =>
    rw [rename, isSound, isSound, isSound_rename f callee, areSound_renameAll f arguments]
  | property b k => rw [rename, isSound, isSound, isSound_rename f b, isKeySound_renameKey f k]
  | «attribute» b k =>
    rw [rename, isSound, isSound, canHaveAttribute_rename f b, isSound_rename f b,
      isKeySound_renameKey f k]
  termination_by structural e

theorem areSound_renameAll (f : String → String) (es : List Expr) :
    areSound (renameAll f es) = areSound es := by
  cases es with
  | nil => rfl
  | cons e es => rw [renameAll, areSound, areSound, isSound_rename f e, areSound_renameAll f es]
  termination_by structural es

theorem areItemsSound_renameItems (f : String → String) (items : List (Field Expr)) :
    areItemsSound (renameItems f items) = areItemsSound items := by
  cases items with
  | nil => rfl
  | cons item items =>
    obtain ⟨key, e, starred⟩ := item
    rw [renameItems, areItemsSound, areItemsSound, isSound_rename f e,
      areItemsSound_renameItems f items]
  termination_by structural items

theorem isKeySound_renameKey (f : String → String) (key : Accessor Expr) :
    isKeySound (renameKey f key) = isKeySound key := by
  cases key with
  | named name => rfl
  | computed e => rw [renameKey, isKeySound, isKeySound, isSound_rename f e]
  termination_by structural key
end

mutual
theorem rename_id (e : Expr) : e.rename id = e := by
  cases e with
  | name _ | var _ | global _ | number _ | text _ => rfl
  | template parts => rw [rename, renameAll_id parts]
  | array elements default => rw [rename, renameAll_id elements]
  | hash items default => rw [rename, renameItems_id items]
  | binary op l r | logical op l r => rw [rename, rename_id l, rename_id r]
  | unary op e | paren e => rw [rename, rename_id e]
  | conditional t c a => rw [rename, rename_id t, rename_id c, rename_id a]
  | call callee arguments => rw [rename, rename_id callee, renameAll_id arguments]
  | property b k | «attribute» b k => rw [rename, rename_id b, renameKey_id k]
  termination_by structural e

theorem renameAll_id (es : List Expr) : renameAll id es = es := by
  cases es with
  | nil => rfl
  | cons e es => rw [renameAll, rename_id e, renameAll_id es]
  termination_by structural es

theorem renameItems_id (items : List (Field Expr)) : renameItems id items = items := by
  cases items with
  | nil => rfl
  | cons item items =>
    obtain ⟨key, e, starred⟩ := item
    rw [renameItems, rename_id e, renameItems_id items]
  termination_by structural items

theorem renameKey_id (key : Accessor Expr) : renameKey id key = key := by
  cases key with
  | named name => rfl
  | computed e => rw [renameKey, rename_id e]
  termination_by structural key
end

/-! ## §2. What is mentioned. -/

theorem within_iff {x e : Expr} : x.Within e ↔ x = e ∨ ∃ c ∈ e.children, x.Within c := by
  constructor
  · intro h
    cases h with
    | refl => exact .inl rfl
    | child hc h => exact .inr ⟨_, hc, h⟩
  · rintro (rfl | ⟨c, hc, h⟩)
    · exact .refl _
    · exact .child hc h

/-- The name stands somewhere in the expression, by itself or with a dollar
sign. -/
def Mentions (e : Expr) (id : String) : Prop :=
  (Expr.name id).Within e ∨ (Expr.var id).Within e

/-- What is mentioned somewhere in the expression is as the predicate says. -/
def MentionsOnly (e : Expr) (R : String → Prop) : Prop :=
  ∀ id, e.Mentions id → R id

/-- The parts of an access are its base and its key, if that is computed. -/
theorem mem_children_access {e b : Expr} {k : Accessor Expr}
    (he : e = .property b k ∨ e = .attribute b k) :
    b ∈ e.children ∧ ∀ key, k = .computed key → key ∈ e.children := by
  rcases he with rfl | rfl <;> cases k <;> simp [children]

theorem MentionsOnly.child {R : String → Prop} {e c : Expr} (h : e.MentionsOnly R)
    (hc : c ∈ e.children) : c.MentionsOnly R :=
  fun id hid => h id (hid.imp (.child hc) (.child hc))

end Expr

/-! ## §3. Frames under other names. -/

/-- What the first frame reads under a name, the second one reads under its
other name; and a name that is no parameter has no other name. -/
structure Frame.Renamed (data : Bindings) (f : String → String) (frame frame' : Frame)
    (id : String) : Prop where
  parameter_iff : f id ∈ frame'.parameters ↔ id ∈ frame.parameters
  value : frame'.variableValue data (f id) = frame.variableValue data id
  elsewhere : id ∉ frame.parameters → f id = id

section

variable {env : Environment} {data : Bindings} {scope : Scope} {frame frame' : Frame}
  {f : String → String}

-- by induction on the expression, with its lists and keys: the frames are those of the whole
-- expression, and the names in its parts are mentioned in it too
mutual
theorem eval_rename (path : List Value) (e : Expr)
    (h : e.MentionsOnly (Frame.Renamed data f frame frame')) :
    eval env data scope frame' path (e.rename f) = eval env data scope frame path e := by
  cases e with
  | name id =>
    have hid := h id (.inl (.refl _))
    rw [Expr.rename, eval, eval, hid.value]
    by_cases hparameter : id ∈ frame.parameters
    · rw [if_pos hparameter, if_pos (hid.parameter_iff.2 hparameter)]
    · rw [if_neg hparameter, if_neg (mt hid.parameter_iff.1 hparameter), hid.elsewhere hparameter]
  | var id => rw [Expr.rename, eval, eval, (h id (.inr (.refl _))).value]
  | global id => rw [Expr.rename, eval, eval]
  | number n => rw [Expr.rename, eval, eval]
  | text s => rw [Expr.rename, eval, eval]
  | template parts => rw [Expr.rename, eval, eval, evalRendered_rename parts fun _ => h.child]
  | array elements default =>
    rw [Expr.rename, eval, eval, evalAll_rename path.tail elements fun _ => h.child]
  | hash items default =>
    have hitems : ∀ item ∈ items, item.value.MentionsOnly (Frame.Renamed data f frame frame') :=
      fun _ hitem => h.child (List.mem_map_of_mem hitem)
    rw [Expr.rename, eval, eval, evalItems_rename path.tail items hitems]
  | binary op l r | logical op l r =>
    have hl := h.child (c := l) List.mem_cons_self
    have hr := h.child (c := r) (List.mem_cons_of_mem _ List.mem_cons_self)
    rw [Expr.rename, eval, eval, eval_rename [] l hl, eval_rename [] r hr]
  | unary op operand =>
    rw [Expr.rename, eval, eval, eval_rename [] operand (h.child List.mem_cons_self)]
  | conditional t c a =>
    have ht := h.child (c := t) List.mem_cons_self
    have hc := h.child (c := c) (List.mem_cons_of_mem _ List.mem_cons_self)
    have ha := h.child (c := a)
      (List.mem_cons_of_mem _ (List.mem_cons_of_mem _ List.mem_cons_self))
    rw [Expr.rename, eval, eval, eval_rename [] t ht, eval_rename path c hc, eval_rename path a ha]
  | call callee arguments =>
    have hcallee := h.child (c := callee) List.mem_cons_self
    have harguments : ∀ e ∈ arguments, e.MentionsOnly (Frame.Renamed data f frame frame') :=
      fun _ he => h.child (List.mem_cons_of_mem _ he)
    rw [Expr.rename, eval, eval, eval_rename [] callee hcallee,
      evalAll_rename [] arguments harguments]
  | property b k =>
    obtain ⟨hb, hk⟩ := Expr.mem_children_access (e := .property b k) (.inl rfl)
    rw [Expr.rename, eval, eval, eval_rename [] b (h.child hb),
      evalKey_rename k fun e he => h.child (hk e he)]
  | «attribute» b k =>
    obtain ⟨hb, hk⟩ := Expr.mem_children_access (e := .attribute b k) (.inr rfl)
    rw [Expr.rename, eval, eval, eval_rename [] b (h.child hb),
      evalKey_rename k fun e he => h.child (hk e he)]
  | paren inner =>
    rw [Expr.rename, eval, eval, eval_rename path inner (h.child List.mem_cons_self)]
  termination_by structural e

theorem evalAll_rename (path : List Value) (es : List Expr)
    (h : ∀ e ∈ es, e.MentionsOnly (Frame.Renamed data f frame frame')) :
    evalAll env data scope frame' path (Expr.renameAll f es)
      = evalAll env data scope frame path es := by
  cases es with
  | nil => rfl
  | cons e es =>
    obtain ⟨he, hes⟩ := List.forall_mem_cons.1 h
    rw [Expr.renameAll, evalAll, evalAll, eval_rename path e he, evalAll_rename path es hes]
  termination_by structural es

theorem evalRendered_rename (es : List Expr)
    (h : ∀ e ∈ es, e.MentionsOnly (Frame.Renamed data f frame frame')) :
    evalRendered env data scope frame' (Expr.renameAll f es)
      = evalRendered env data scope frame es := by
  cases es with
  | nil => rfl
  | cons e es =>
    obtain ⟨he, hes⟩ := List.forall_mem_cons.1 h
    rw [Expr.renameAll, evalRendered, evalRendered, eval_rename [] e he,
      evalRendered_rename es hes]
  termination_by structural es

theorem evalItems_rename (path : List Value) (items : List (Field Expr))
    (h : ∀ item ∈ items, item.value.MentionsOnly (Frame.Renamed data f frame frame')) :
    evalItems env data scope frame' path (Expr.renameItems f items)
      = evalItems env data scope frame path items := by
  cases items with
  | nil => rfl
  | cons item items =>
    obtain ⟨key, e, starred⟩ := item
    obtain ⟨he, hitems⟩ := List.forall_mem_cons.1 h
    rw [Expr.renameItems, evalItems, evalItems, eval_rename path e he,
      evalItems_rename path items hitems]
  termination_by structural items

theorem evalKey_rename (key : Accessor Expr)
    (h : ∀ e, key = .computed e → e.MentionsOnly (Frame.Renamed data f frame frame')) :
    evalKey env data scope frame' (Expr.renameKey f key) = evalKey env data scope frame key := by
  cases key with
  | named name => rfl
  | computed e => rw [Expr.renameKey, evalKey, evalKey, eval_rename [] e (h e rfl)]
  termination_by structural key
end

end

/-! ## §4. Calls. -/

/-- Macros whose bodies come to the same at every depth are called with the
same results. -/
theorem Macro.calls_eq {env : Environment} {data : Bindings} {m m' : Macro} {as bs : List Value}
    (h : ∀ n, eval env data (Scope.within env data n) (.call m.parameters as) [] m.body
      = eval env data (Scope.within env data n) (.call m'.parameters bs) [] m'.body) :
    m.call env data as = m'.call env data bs
      ∧ ∀ n, (Scope.within env data n).invoke m as = (Scope.within env data n).invoke m' bs := by
  have hinvoke : ∀ n, (Scope.within env data n).invoke m as
      = (Scope.within env data n).invoke m' bs := by
    intro n
    -- nothing is called at the last level, and else the body is evaluated one level down
    cases n with
    | zero => rfl
    | succ n => exact h n
  refine ⟨?_, hinvoke⟩
  show (Scope.within env data maxDepth).invoke m as >>= _
    = (Scope.within env data maxDepth).invoke m' bs >>= _
  rw [hinvoke maxDepth]

end Phrasebook
