/-
  Phrasebook.Proofs.Eval.Walk
  ────────────────────────────────
  **ALL VARIANTS ARE EVALUATED, ONE IS CHOSEN.**

  A literal is evaluated as a whole before anything is chosen from it.  A walk
  goes the other way: it chooses first, goes on with the rest of the path in
  what it has chosen, and evaluates only the texts that it comes to:

      TakesElement, TakesItem  —  what a walk takes of an array or a hash
      Walks, Walks.unique      —  where it comes to, and nowhere else
      failureOf_eval           —  a literal fails as the first of its texts
                                  that fails, whatever the path
      eval_walks               —  if it does not, it comes to where the walk
                                  comes to
      literals_are_walked      —  both, for all literals that can be read
-/
import Mathlib.Data.List.Forall2
import Phrasebook.Proofs.Eval.Respect
import Phrasebook.Proofs.Grammar.Precedence

namespace Phrasebook

/-! ## §1. The texts of a literal. -/

namespace Expr

/-- Is the tree a text, with or without placed expressions? -/
def isText : Expr → Bool
  | .text _ | .template _ => true
  | _ => false

mutual
/-- The texts in a literal, in the order of its elements and items. -/
def leaves : Expr → List Expr
  | .array elements _ => leavesOfAll elements
  | .hash items _ => leavesOfItems items
  | e => [e]

/-- The texts in several literals. -/
def leavesOfAll : List Expr → List Expr
  | [] => []
  | e :: es => e.leaves ++ leavesOfAll es

/-- The texts in the values of several items. -/
def leavesOfItems : List (Field Expr) → List Expr
  | [] => []
  | ⟨_, e, _⟩ :: items => e.leaves ++ leavesOfItems items
end

theorem leaves_array (elements : List Expr) (default : Option Nat) :
    (Expr.array elements default).leaves = elements.flatMap leaves := by
  show leavesOfAll elements = _
  induction elements with
  | nil => rfl
  | cons e es ih => rw [leavesOfAll, ih, List.flatMap_cons]

theorem leaves_hash (items : List (Field Expr)) (default : Option String) :
    (Expr.hash items default).leaves = items.flatMap fun f => f.value.leaves := by
  show leavesOfItems items = _
  induction items with
  | nil => rfl
  | cons f items ih => rw [leavesOfItems, ih, List.flatMap_cons]

theorem isText_of_mem_leaves {e : Expr} (he : e.Written) (hl : e.isLiteral = true) :
    ∀ leaf ∈ e.leaves, leaf.isText = true := by
  induction he with
  | text s =>
    intro leaf hleaf
    rw [List.mem_singleton.1 hleaf]
    rfl
  | template _ _ =>
    intro leaf hleaf
    rw [List.mem_singleton.1 hleaf]
    rfl
  | @array written _ hls ih =>
    intro leaf hleaf
    rw [ofElements, leaves_array] at hleaf
    obtain ⟨x, hx, hleaf⟩ := List.mem_flatMap.1 hleaf
    obtain ⟨w, hw, rfl⟩ := List.mem_map.1 hx
    exact ih w hw (hls w hw) leaf hleaf
  | @hash written _ hls ih =>
    intro leaf hleaf
    rw [ofItems, leaves_hash] at hleaf
    obtain ⟨f, hf, hleaf⟩ := List.mem_flatMap.1 hleaf
    have hwritten := Field.mem_of_mem_settle hf
    exact ih f hwritten (hls f hwritten) leaf hleaf
  | _ => exact nomatch hl

end Expr

/-! ## §2. What a walk takes. -/

/-- The selector names a position: a number that is not negative, or a text
that reads as one. -/
inductive NamesPosition : Value → Nat → Prop where
  | number {n : Int64} {i : Nat} (h : n.toInt = i) : NamesPosition (.number n) i
  | text {s : String} {i : Nat} (h : natural? 64 s = some i) : NamesPosition (.text s) i

/-- The next selector of a path names the position of one of `size` elements. -/
def SelectsElement (path : List Value) (size i : Nat) : Prop :=
  ∃ selector rest, path = selector :: rest ∧ NamesPosition selector i ∧ i < size

/-- The position of the element that a walk takes: the one that the next
selector names, or else the default, if there is such an element. -/
inductive TakesElement (path : List Value) (default : Option Nat) (size i : Nat) : Prop where
  | selected (h : SelectsElement path size i)
  | default (hnone : ∀ j, ¬ SelectsElement path size j) (h : default = some i) (hi : i < size)

/-- The first item with a key. -/
def itemAt? (items : List (Field Expr)) (key : String) : Option (Field Expr) :=
  items.find? fun f => f.key == key

/-- The key of an item is how the next selector of a path is displayed. -/
def SelectsItem (path : List Value) (items : List (Field Expr)) (f : Field Expr) : Prop :=
  ∃ selector rest, path = selector :: rest ∧ itemAt? items selector.display = some f

/-- The item that a walk takes: the one that the next selector names, or else
the default, if there is such an item. -/
inductive TakesItem (path : List Value) (default : Option String) (items : List (Field Expr))
    (f : Field Expr) : Prop where
  | selected (h : SelectsItem path items f)
  | default {key : String} (hnone : ∀ g, ¬ SelectsItem path items g) (h : default = some key)
      (hf : itemAt? items key = some f)

/-- A selector names one position at most. -/
theorem NamesPosition.unique {selector : Value} {i j : Nat} (hi : NamesPosition selector i)
    (hj : NamesPosition selector j) : i = j := by
  cases hi with
  | number hi =>
    cases hj with
    | number hj => omega
  | text hi =>
    cases hj with
    | text hj => exact Option.some.inj (hi.symm.trans hj)

theorem SelectsElement.unique {path : List Value} {size i j : Nat}
    (hi : SelectsElement path size i) (hj : SelectsElement path size j) : i = j := by
  obtain ⟨selector, rest, rfl, hi, -⟩ := hi
  obtain ⟨selector', rest', heq, hj, -⟩ := hj
  obtain ⟨rfl, -⟩ := List.cons.inj heq
  exact hi.unique hj

theorem SelectsItem.unique {path : List Value} {items : List (Field Expr)} {f g : Field Expr}
    (hf : SelectsItem path items f) (hg : SelectsItem path items g) : f = g := by
  obtain ⟨selector, rest, rfl, hf⟩ := hf
  obtain ⟨selector', rest', heq, hg⟩ := hg
  obtain ⟨rfl, -⟩ := List.cons.inj heq
  exact Option.some.inj (hf.symm.trans hg)

theorem TakesElement.unique {path : List Value} {default : Option Nat} {size i j : Nat}
    (hi : TakesElement path default size i) (hj : TakesElement path default size j) : i = j := by
  cases hi with
  | selected hi =>
    cases hj with
    | selected hj => exact hi.unique hj
    | default hnone _ _ => exact absurd hi (hnone i)
  | default hnone hi _ =>
    cases hj with
    | selected hj => exact absurd hj (hnone j)
    | default _ hj _ => exact Option.some.inj (hi.symm.trans hj)

theorem TakesItem.unique {path : List Value} {default : Option String} {items : List (Field Expr)}
    {f g : Field Expr} (hf : TakesItem path default items f) (hg : TakesItem path default items g) :
    f = g := by
  cases hf with
  | selected hf =>
    cases hg with
    | selected hg => exact hf.unique hg
    | default hnone _ _ => exact absurd hf (hnone f)
  | default hnone hk hf =>
    cases hg with
    | selected hg => exact absurd hg (hnone g)
    | default _ hk' hg =>
      obtain rfl := Option.some.inj (hk.symm.trans hk')
      exact Option.some.inj (hf.symm.trans hg)

theorem TakesItem.mem {path : List Value} {default : Option String} {items : List (Field Expr)}
    {f : Field Expr} (h : TakesItem path default items f) : f ∈ items := by
  cases h with
  | selected h =>
    obtain ⟨_, _, -, hf⟩ := h
    exact List.mem_of_find?_eq_some hf
  | default _ _ hf => exact List.mem_of_find?_eq_some hf

/-! ## §3. Walks. -/

/-- Where a walk along a path comes to in a literal.  Only the texts that it
comes to are evaluated, by themselves. -/
inductive Walks (evaluate : Expr → Except EvalError Value) :
    (path : List Value) → Expr → Value → Prop where
  | text {path : List Value} {e : Expr} {v : Value} (he : e.isText = true)
      (h : evaluate e = .ok v) : Walks evaluate path e v
  /-- The walk goes on in the element that it takes, and nowhere else. -/
  | element {path : List Value} {elements : List Expr} {default : Option Nat} {i : Nat} {e : Expr}
      {v : Value} (htakes : TakesElement path default elements.length i)
      (he : elements[i]? = some e) (h : Walks evaluate path.tail e v) :
      Walks evaluate path (.array elements default) v
  /-- It takes none, so it goes on in each. -/
  | array {path : List Value} {elements : List Expr} {default : Option Nat} {values : List Value}
      (hnone : ∀ i, ¬ TakesElement path default elements.length i)
      (hlength : values.length = elements.length)
      (h : ∀ (i : Nat) (e : Expr) (v : Value), elements[i]? = some e → values[i]? = some v →
        Walks evaluate path.tail e v) :
      Walks evaluate path (.array elements default) (.array values)
  /-- The walk goes on in the item that it takes, and nowhere else. -/
  | item {path : List Value} {items : List (Field Expr)} {default : Option String}
      {f : Field Expr} {v : Value} (htakes : TakesItem path default items f)
      (h : Walks evaluate path.tail f.value v) : Walks evaluate path (.hash items default) v
  /-- It takes none, so it goes on in each. -/
  | hash {path : List Value} {items : List (Field Expr)} {default : Option String}
      {values : List (String × Value)} (hnone : ∀ f, ¬ TakesItem path default items f)
      (hkeys : values.map Prod.fst = items.map Field.key)
      (h : ∀ (i : Nat) (f : Field Expr) (v : String × Value), items[i]? = some f →
        values[i]? = some v → Walks evaluate path.tail f.value v.2) :
      Walks evaluate path (.hash items default) (.hash values)

/-- A walk comes to one value at most. -/
theorem Walks.unique {evaluate : Expr → Except EvalError Value} {path : List Value} {e : Expr}
    {v w : Value} (hv : Walks evaluate path e v) (hw : Walks evaluate path e w) : v = w := by
  induction hv generalizing w with
  | text he h =>
    cases hw with
    | text _ h' => exact Except.ok.inj (h.symm.trans h')
    | element _ _ _ | array _ _ _ | item _ _ | hash _ _ _ => exact nomatch he
  | element htakes he _ ih =>
    cases hw with
    | text he' _ => exact nomatch he'
    | element htakes' he' h' =>
      obtain rfl := htakes.unique htakes'
      obtain rfl := Option.some.inj (he.symm.trans he')
      exact ih h'
    | array hnone _ _ => exact absurd htakes (hnone _)
  | @array path elements default values hnone hlength _ ih =>
    cases hw with
    | text he' _ => exact nomatch he'
    | element htakes _ _ => exact absurd htakes (hnone _)
    | @array _ _ _ values' _ hlength' h' =>
      refine congrArg Value.array (List.ext_getElem (hlength.trans hlength'.symm) fun i hi hi' => ?_)
      have he : elements[i]? = some elements[i] := List.getElem?_eq_getElem _
      exact ih i _ _ he (List.getElem?_eq_getElem hi)
        (h' i _ _ he (List.getElem?_eq_getElem hi'))
  | item htakes _ ih =>
    cases hw with
    | text he' _ => exact nomatch he'
    | item htakes' h' =>
      obtain rfl := htakes.unique htakes'
      exact ih h'
    | hash hnone _ _ => exact absurd htakes (hnone _)
  | @hash path items default values hnone hkeys _ ih =>
    cases hw with
    | text he' _ => exact nomatch he'
    | item htakes _ => exact absurd htakes (hnone _)
    | @hash _ _ _ values' _ hkeys' h' =>
      have hlength : values.length = items.length := by simpa using congrArg List.length hkeys
      have hlength' : values'.length = items.length := by simpa using congrArg List.length hkeys'
      refine congrArg Value.hash (List.ext_getElem (hlength.trans hlength'.symm) fun i hi hi' => ?_)
      have hf : items[i]? = some items[i] := List.getElem?_eq_getElem _
      have hvalue : values[i].2 = values'[i].2 := ih i _ _ hf (List.getElem?_eq_getElem hi)
        (h' i _ _ hf (List.getElem?_eq_getElem hi'))
      have hkey : values[i].1 = values'[i].1 := by
        have hfirst : (values.map Prod.fst)[i]? = (values'.map Prod.fst)[i]? := by
          rw [hkeys, hkeys']
        simpa [hi, hi'] using hfirst
      exact Prod.ext hkey hvalue

/-! ## §4. Choosing from values. -/

theorem elementPosition_eq_some_iff {selector : Value} {size i : Nat} :
    elementPosition selector size = some i ↔ NamesPosition selector i ∧ i < size := by
  unfold elementPosition
  rw [Option.filter_eq_some_iff, decide_eq_true_eq]
  refine and_congr_left fun _ => ?_
  cases selector with
  | number n =>
    dsimp only
    constructor
    · intro h
      split at h
      · next hn => exact .number (by rw [← Option.some.inj h]; omega)
      · exact nomatch h
    · rintro (⟨h⟩)
      rw [if_pos (by omega), h]
      rfl
  | text s =>
    refine ⟨.text, fun h => ?_⟩
    cases h with
    | text h => exact h
  | absent | bool _ | float _ | array _ | hash _ | entity _ | macroRef _ | function _ =>
    exact iff_of_false nofun nofun

theorem selectsElement_iff {path : List Value} {size i : Nat} :
    SelectsElement path size i
      ↔ (path.head?.bind fun selector => elementPosition selector size) = some i := by
  cases path with
  | nil => exact iff_of_false (fun ⟨_, _, h, _⟩ => nomatch h) nofun
  | cons selector rest =>
    rw [List.head?_cons, Option.bind_some, elementPosition_eq_some_iff]
    constructor
    · rintro ⟨selector', rest', heq, h⟩
      obtain ⟨rfl, -⟩ := List.cons.inj heq
      exact h
    · exact fun h => ⟨selector, rest, rfl, h⟩

/-- Of values, the one at the position that a walk takes is picked, or all of
them if it takes none. -/
theorem pickElement_cases (path : List Value) (default : Option Nat) (values : List Value) :
    (∃ i v, TakesElement path default values.length i ∧ values[i]? = some v
        ∧ pickElement path default values = v)
      ∨ (∀ i, ¬ TakesElement path default values.length i)
        ∧ pickElement path default values = .array values := by
  have hselects := @selectsElement_iff path values.length
  unfold pickElement
  dsimp only
  cases hselected : path.head?.bind fun selector => elementPosition selector values.length with
  | some i =>
    have hi := (hselects (i := i)).2 hselected
    have hlt : i < values.length := by
      obtain ⟨-, -, -, -, hlt⟩ := hi
      exact hlt
    have hvalue : values[i]? = some values[i] := List.getElem?_eq_getElem hlt
    refine .inl ⟨i, values[i], .selected hi, hvalue, ?_⟩
    rw [Option.some_or, Option.bind_some, hvalue]
  | none =>
    have hnone : ∀ j, ¬ SelectsElement path values.length j := by
      intro j hj
      rw [hselects, hselected] at hj
      exact nomatch hj
    rw [Option.none_or]
    cases hdefault : default with
    | none =>
      refine .inr ⟨fun i hi => ?_, rfl⟩
      cases hi with
      | selected h => exact hnone i h
      | default _ h _ => exact nomatch h
    | some i =>
      rw [Option.bind_some]
      by_cases hlt : i < values.length
      · have hvalue : values[i]? = some values[i] := List.getElem?_eq_getElem hlt
        refine .inl ⟨i, values[i], .default hnone rfl hlt, hvalue, ?_⟩
        rw [hvalue]
      · -- a default out of range is none
        rw [List.getElem?_eq_none (Nat.le_of_not_lt hlt)]
        refine .inr ⟨fun j hj => ?_, rfl⟩
        cases hj with
        | selected h => exact hnone j h
        | default _ h hj =>
          obtain rfl := Option.some.inj h
          exact hlt hj

theorem forall₂_getElem? {α β : Type} {R : α → β → Prop} {as : List α} {bs : List β}
    (h : List.Forall₂ R as bs) {i : Nat} {a : α} {b : β} (ha : as[i]? = some a)
    (hb : bs[i]? = some b) : R a b := by
  obtain ⟨hi, rfl⟩ := List.getElem?_eq_some_iff.1 ha
  obtain ⟨hi', rfl⟩ := List.getElem?_eq_some_iff.1 hb
  exact (List.forall₂_iff_get.1 h).2 i hi hi'

/-- Items with values in place of expressions. -/
def Valued (R : Expr → Value → Prop) (items : List (Field Expr)) (values : List (String × Value)) :
    Prop :=
  List.Forall₂ (fun f v => v.1 = f.key ∧ R f.value v.2) items values

theorem Valued.item? {R : Expr → Value → Prop} {items : List (Field Expr)}
    {values : List (String × Value)} (h : Valued R items values) (key : String) :
    (∃ f v, itemAt? items key = some f ∧ Value.item? key values = some v ∧ R f.value v)
      ∨ itemAt? items key = none ∧ Value.item? key values = none := by
  induction h with
  | nil => exact .inr ⟨rfl, rfl⟩
  | @cons f v items values hfirst _ ih =>
    obtain ⟨k, v⟩ := v
    obtain ⟨rfl, hr⟩ := hfirst
    by_cases hkey : f.key = key
    · refine .inl ⟨f, v, ?_, ?_, hr⟩
      · rw [itemAt?, List.find?_cons_of_pos (by simpa using hkey)]
      · rw [Value.item?, if_pos hkey]
    · rw [itemAt?, List.find?_cons_of_neg (by simpa using hkey), Value.item?, if_neg hkey]
      exact ih

/-- Each value is that of some item. -/
theorem Valued.exists_of_mem {R : Expr → Value → Prop} {items : List (Field Expr)}
    {values : List (String × Value)} (h : Valued R items values) {v : String × Value}
    (hv : v ∈ values) : ∃ f ∈ items, v.1 = f.key ∧ R f.value v.2 := by
  induction h with
  | nil => exact absurd hv List.not_mem_nil
  | cons hfirst _ ih =>
    rcases List.mem_cons.1 hv with rfl | hv
    · exact ⟨_, List.mem_cons_self, hfirst⟩
    · obtain ⟨f, hf, hvalue⟩ := ih hv
      exact ⟨f, List.mem_cons_of_mem _ hf, hvalue⟩

theorem Valued.keys {R : Expr → Value → Prop} {items : List (Field Expr)}
    {values : List (String × Value)} (h : Valued R items values) :
    values.map Prod.fst = items.map Field.key := by
  induction h with
  | nil => rfl
  | cons hfirst _ ih => rw [List.map_cons, List.map_cons, ih, hfirst.1]

/-- Of items with values, the one that a walk takes is picked, or all of them
if it takes none. -/
theorem pickItem_cases {R : Expr → Value → Prop} {items : List (Field Expr)}
    {values : List (String × Value)} (h : Valued R items values) (path : List Value)
    (default : Option String) :
    (∃ f v, TakesItem path default items f ∧ R f.value v ∧ pickItem path default values = v)
      ∨ (∀ f, ¬ TakesItem path default items f)
        ∧ pickItem path default values = .hash values := by
  -- nothing is selected: the default counts, if there is one
  have hmissed : (∀ g, ¬ SelectsItem path items g) →
      (path.head?.bind fun selector => Value.item? selector.display values) = none →
      (∃ f v, TakesItem path default items f ∧ R f.value v ∧ pickItem path default values = v)
        ∨ (∀ f, ¬ TakesItem path default items f)
          ∧ pickItem path default values = .hash values := by
    intro hnone hselected
    unfold pickItem
    dsimp only
    rw [hselected, Option.none_or]
    cases default with
    | none =>
      refine .inr ⟨fun f hf => ?_, rfl⟩
      cases hf with
      | selected hf => exact hnone f hf
      | default _ hf _ => exact nomatch hf
    | some key =>
      rw [Option.bind_some]
      rcases h.item? key with ⟨f, v, hf, hv, hr⟩ | ⟨hf, hv⟩
      · rw [hv]
        exact .inl ⟨f, v, .default hnone rfl hf, hr, rfl⟩
      · rw [hv]
        refine .inr ⟨fun g hg => ?_, rfl⟩
        cases hg with
        | selected hg => exact hnone g hg
        | default _ hkey hg =>
          obtain rfl := Option.some.inj hkey
          exact nomatch hf.symm.trans hg
  cases path with
  | nil => exact hmissed (fun g ⟨_, _, hpath, _⟩ => nomatch hpath) rfl
  | cons selector rest =>
    rcases h.item? selector.display with ⟨f, v, hf, hv, hr⟩ | ⟨hf, hv⟩
    · refine .inl ⟨f, v, .selected ⟨selector, rest, rfl, hf⟩, hr, ?_⟩
      unfold pickItem
      dsimp only
      rw [List.head?_cons, Option.bind_some, hv, Option.some_or]
    · refine hmissed (fun g ⟨_, _, hpath, hg⟩ => ?_) hv
      obtain ⟨rfl, -⟩ := List.cons.inj hpath
      exact nomatch hf.symm.trans hg

/-! ## §5. Evaluation. -/

/-- The error of a computation, if it fails. -/
def failureOf {α : Type} : Except EvalError α → Option EvalError
  | .ok _ => none
  | .error x => some x

theorem failureOf_eq_none_iff {α : Type} {x : Except EvalError α} :
    failureOf x = none ↔ ∃ a, x = .ok a := by
  cases x with
  | ok a => exact iff_of_true rfl ⟨a, rfl⟩
  | error e => exact iff_of_false nofun nofun

theorem failureOf_eq_some_iff {α : Type} {x : Except EvalError α} {e : EvalError} :
    failureOf x = some e ↔ x = .error e := by
  cases x with
  | ok a => exact iff_of_false nofun nofun
  | error e' => exact ⟨fun h => congrArg Except.error (Option.some.inj h), fun h => h ▸ rfl⟩

/-- What follows without an error of its own does not change the error. -/
theorem failureOf_map {α β : Type} (x : Except EvalError α) (f : α → β) :
    failureOf (x >>= fun a => pure (f a)) = failureOf x := by
  cases x <;> rfl

/-- The first failure among several trees in a row. -/
theorem findSome?_flatMap {α β γ : Type} (f : α → List β) (g : β → Option γ) (as : List α) :
    (as.flatMap f).findSome? g = as.findSome? fun a => (f a).findSome? g := by
  induction as with
  | nil => rfl
  | cons a as ih =>
    rw [List.flatMap_cons, List.findSome?_append, ih, List.findSome?_cons]
    cases (f a).findSome? g <;> rfl

theorem findSome?_congr {α β : Type} {f g : α → Option β} {as : List α}
    (h : ∀ a ∈ as, f a = g a) : as.findSome? f = as.findSome? g := by
  induction as with
  | nil => rfl
  | cons a as ih =>
    rw [List.findSome?_cons, List.findSome?_cons, h a List.mem_cons_self,
      ih fun b hb => h b (List.mem_cons_of_mem _ hb)]

section

variable (env : Environment) (data : Bindings) (scope : Scope) (frame : Frame)

theorem failureOf_evalAll (path : List Value) (es : List Expr) :
    failureOf (evalAll env data scope frame path es)
      = es.findSome? fun e => failureOf (eval env data scope frame path e) := by
  induction es with
  | nil => rfl
  | cons e es ih =>
    rw [evalAll, List.findSome?_cons]
    cases eval env data scope frame path e with
    | error x => rfl
    | ok v => exact (failureOf_map _ _).trans ih

theorem failureOf_evalItems (path : List Value) (items : List (Field Expr)) :
    failureOf (evalItems env data scope frame path items)
      = items.findSome? fun f => failureOf (eval env data scope frame path f.value) := by
  induction items with
  | nil => rfl
  | cons f items ih =>
    rw [evalItems, List.findSome?_cons]
    cases eval env data scope frame path f.value with
    | error x => rfl
    | ok v => exact (failureOf_map _ _).trans ih

/-- A literal fails as the first of its texts that fails, and with the same
error, whatever is selected. -/
theorem failureOf_eval {e : Expr} (he : e.Written) (hl : e.isLiteral = true) (path : List Value) :
    failureOf (eval env data scope frame path e)
      = e.leaves.findSome? fun leaf => failureOf (eval env data scope frame [] leaf) := by
  -- by induction on the tree: the path is another one inside of each array and hash
  induction he generalizing path with
  | text s => rfl
  | @template parts _ _ =>
    show _ = [Expr.template parts].findSome? _
    rw [List.findSome?_cons, List.findSome?_nil]
    have hsame : eval env data scope frame path (.template parts)
        = eval env data scope frame [] (.template parts) := rfl
    rw [hsame]
    cases failureOf (eval env data scope frame [] (.template parts)) <;> rfl
  | @array written _ hls ih =>
    rw [Expr.ofElements, eval, failureOf_map, failureOf_evalAll, Expr.leaves_array,
      findSome?_flatMap]
    refine findSome?_congr fun x hx => ?_
    obtain ⟨w, hw, rfl⟩ := List.mem_map.1 hx
    exact ih w hw (hls w hw) path.tail
  | @hash written _ hls ih =>
    rw [Expr.ofItems, eval, failureOf_map, failureOf_evalItems, Expr.leaves_hash,
      findSome?_flatMap]
    refine findSome?_congr fun f hf => ?_
    have hwritten := Field.mem_of_mem_settle hf
    exact ih f hwritten (hls f hwritten) path.tail
  | _ => exact absurd hl Bool.false_ne_true

theorem evalAll_eq_ok {path : List Value} {es : List Expr} {vs : List Value}
    (h : evalAll env data scope frame path es = .ok vs) :
    List.Forall₂ (fun e v => eval env data scope frame path e = .ok v) es vs := by
  induction es generalizing vs with
  | nil =>
    obtain rfl := Except.ok.inj h
    exact .nil
  | cons e es ih =>
    obtain ⟨v, hv, h⟩ := exists_of_bind_ok h
    obtain ⟨later, hlater, h⟩ := exists_of_bind_ok h
    obtain rfl := Except.ok.inj h
    exact .cons hv (ih hlater)

theorem evalItems_eq_ok {path : List Value} {items : List (Field Expr)}
    {values : List (String × Value)} (h : evalItems env data scope frame path items = .ok values) :
    Valued (fun e v => eval env data scope frame path e = .ok v) items values := by
  induction items generalizing values with
  | nil =>
    obtain rfl := Except.ok.inj h
    exact .nil
  | cons f items ih =>
    obtain ⟨v, hv, h⟩ := exists_of_bind_ok h
    obtain ⟨later, hlater, h⟩ := exists_of_bind_ok h
    obtain rfl := Except.ok.inj h
    exact .cons ⟨rfl, hv⟩ (ih hlater)

/-- A literal that does not fail comes to where the walk comes to. -/
theorem eval_walks {e : Expr} (he : e.Written) (hl : e.isLiteral = true) {path : List Value}
    {v : Value} (h : eval env data scope frame path e = .ok v) :
    Walks (eval env data scope frame []) path e v := by
  -- by induction on the tree: what all elements come to, the walk comes to in those it takes
  induction he generalizing path v with
  | text s => exact .text rfl h
  | template _ _ => exact .text rfl h
  | @array written _ hls ih =>
    obtain ⟨values, hvalues, h⟩ := exists_of_bind_ok h
    obtain rfl := Except.ok.inj h
    have hall := evalAll_eq_ok env data scope frame hvalues
    have hlength := hall.length_eq
    have hwalk : ∀ (i : Nat) (x : Expr) (w : Value), (written.map Prod.snd)[i]? = some x →
        values[i]? = some w → Walks (eval env data scope frame []) path.tail x w := by
      intro i x w hx hw
      obtain ⟨y, hy, rfl⟩ := List.mem_map.1 (List.mem_of_getElem? hx)
      exact ih y hy (hls y hy) (forall₂_getElem? hall hx hw)
    rcases pickElement_cases path (lastStarred written) values with
      ⟨i, w, htakes, hw, hpick⟩ | ⟨hnone, hpick⟩
    · rw [hpick]
      rw [← hlength] at htakes
      have hi : i < (written.map Prod.snd).length := by
        rw [hlength]
        exact (List.getElem?_eq_some_iff.1 hw).1
      have hx := List.getElem?_eq_getElem hi
      exact .element htakes hx (hwalk i _ w hx hw)
    · rw [hpick]
      rw [← hlength] at hnone
      exact .array hnone hlength.symm hwalk
  | @hash written _ hls ih =>
    obtain ⟨values, hvalues, h⟩ := exists_of_bind_ok h
    obtain rfl := Except.ok.inj h
    have hall := evalItems_eq_ok env data scope frame hvalues
    have hwritten : ∀ f ∈ Field.settle written, ∀ w,
        eval env data scope frame path.tail f.value = .ok w →
          Walks (eval env data scope frame []) path.tail f.value w := by
      intro f hf w hw
      have hmem := Field.mem_of_mem_settle hf
      exact ih f hmem (hls f hmem) hw
    rcases pickItem_cases hall path (starredKey (Field.settle written)) with
      ⟨f, w, htakes, hw, hpick⟩ | ⟨hnone, hpick⟩
    · rw [hpick]
      exact .item htakes (hwritten f htakes.mem w hw)
    · rw [hpick]
      refine .hash hnone hall.keys fun i f w hf hw => ?_
      exact hwritten f (List.mem_of_getElem? hf) w.2 (forall₂_getElem? hall hf hw).2
  | _ => exact nomatch hl

end

/-! ## §6. All literals that can be read. -/

/-- The trees right below a tree. -/
def Expr.children : Expr → List Expr
  | .name _ | .var _ | .global _ | .number _ | .text _ => []
  | .template parts => parts
  | .array elements _ => elements
  | .hash items _ => items.map Field.value
  | .binary _ l r | .logical _ l r => [l, r]
  | .unary _ e | .paren e => [e]
  | .conditional t c a => [t, c, a]
  | .call f arguments => f :: arguments
  | .property b (.named _) | .attribute b (.named _) => [b]
  | .property b (.computed k) | .attribute b (.computed k) => [b, k]

/-- The first tree stands somewhere in the second one, or is it. -/
inductive Expr.Within : Expr → Expr → Prop where
  | refl (e : Expr) : Within e e
  | child {x c e : Expr} (hc : c ∈ e.children) (h : Within x c) : Within x e

theorem Expr.Written.child {e : Expr} (he : e.Written) : ∀ c ∈ e.children, c.Written := by
  intro c hc
  cases he with
  | name | var | global | number | text => exact absurd hc List.not_mem_nil
  | template h => exact h c hc
  | array h _ =>
    obtain ⟨w, hw, rfl⟩ := List.mem_map.1 hc
    exact h w hw
  | hash h _ =>
    obtain ⟨f, hf, rfl⟩ := List.mem_map.1 hc
    exact h f (Field.mem_of_mem_settle hf)
  | binary hl hr _ _ | logical hl hr _ _ =>
    simp only [children, List.mem_cons, List.not_mem_nil, or_false] at hc
    rcases hc with rfl | rfl <;> assumption
  | unary h _ | paren h => exact List.mem_singleton.1 hc ▸ h
  | conditional ht hc' ha _ =>
    simp only [children, List.mem_cons, List.not_mem_nil, or_false] at hc
    rcases hc with rfl | rfl | rfl <;> assumption
  | call hf _ ha =>
    rcases List.mem_cons.1 hc with rfl | hc
    · exact hf
    · exact ha c hc
  | @property b k hb _ hk | @attributeOf b k hb _ hk =>
    cases k with
    | named id => exact List.mem_singleton.1 hc ▸ hb
    | computed key =>
      simp only [children, List.mem_cons, List.not_mem_nil, or_false] at hc
      rcases hc with rfl | rfl
      · exact hb
      · exact hk _ rfl

theorem Expr.Written.within {e x : Expr} (h : x.Within e) (he : e.Written) : x.Written := by
  induction h with
  | refl => exact he
  | child hc _ ih => exact ih (he.child _ hc)

/-- How a literal is evaluated, in terms of its texts and of walks. -/
structure Expr.Weighs (env : Environment) (data : Bindings) (scope : Scope) (frame : Frame)
    (e : Expr) : Prop where
  leaves_text : ∀ leaf ∈ e.leaves, leaf.isText = true
  /-- It has a value if all of its texts have one, whatever is selected. -/
  ok_iff : ∀ path, (∃ v, eval env data scope frame path e = .ok v)
    ↔ ∀ leaf ∈ e.leaves, ∃ s, eval env data scope frame [] leaf = .ok (.text s)
  /-- Its error is that of the first text that has none, whatever is
  selected. -/
  error_iff : ∀ path x, eval env data scope frame path e = .error x
    ↔ ∃ before leaf after, e.leaves = before ++ leaf :: after
      ∧ (∀ l ∈ before, ∃ s, eval env data scope frame [] l = .ok (.text s))
      ∧ eval env data scope frame [] leaf = .error x
  /-- Its value is what the walk along the path comes to, and nothing else
  is. -/
  walk_iff : ∀ path v, eval env data scope frame path e = .ok v →
    ∀ w, Walks (eval env data scope frame []) path e w ↔ w = v

/-- A text is evaluated to a text, if to anything. -/
theorem eval_text {env : Environment} {data : Bindings} {scope : Scope} {frame : Frame} {e : Expr}
    (he : e.isText = true) :
    failureOf (eval env data scope frame [] e) = none
      ↔ ∃ s, eval env data scope frame [] e = .ok (.text s) := by
  rw [failureOf_eq_none_iff]
  refine ⟨fun ⟨v, hv⟩ => ?_, fun ⟨s, hs⟩ => ⟨_, hs⟩⟩
  cases e with
  | text s => exact ⟨s, rfl⟩
  | template parts =>
    obtain ⟨values, -, h⟩ := exists_of_bind_ok hv
    obtain rfl := Except.ok.inj h
    exact ⟨_, hv⟩
  | _ => exact nomatch he

theorem Expr.WrittenLiteral.weighs {e : Expr} (he : e.WrittenLiteral) (env : Environment)
    (data : Bindings) (scope : Scope) (frame : Frame) : e.Weighs env data scope frame where
  leaves_text := isText_of_mem_leaves he.1 he.2
  ok_iff path := by
    rw [← failureOf_eq_none_iff, failureOf_eval env data scope frame he.1 he.2,
      List.findSome?_eq_none_iff]
    exact forall₂_congr fun leaf hleaf => eval_text (isText_of_mem_leaves he.1 he.2 leaf hleaf)
  error_iff path x := by
    rw [← failureOf_eq_some_iff, failureOf_eval env data scope frame he.1 he.2,
      List.findSome?_eq_some_iff]
    refine exists_congr fun before => exists_congr fun leaf => exists_congr fun after => ?_
    rw [failureOf_eq_some_iff, and_comm (a := eval env data scope frame [] leaf = .error x)]
    refine and_congr_right fun hleaves => and_congr_left fun _ => ?_
    refine forall₂_congr fun l hl => eval_text (isText_of_mem_leaves he.1 he.2 l ?_)
    rw [hleaves]
    exact List.mem_append_left _ hl
  walk_iff path v hv w := by
    have hwalk := eval_walks env data scope frame he.1 he.2 hv
    exact ⟨fun hw => hw.unique hwalk, fun hw => hw ▸ hwalk⟩

namespace Resource

/-- The entry is read from the resource, strictly or with recovery. -/
def Yields (source : String) (entry : Entry) : Prop :=
  (∃ es, read source = .ok es ∧ entry ∈ es) ∨ entry ∈ (salvage source).entries

theorem Yields.written {source : String} {entry : Entry} (h : Yields source entry) :
    entry.Written ∨ ∃ content, entry = .junk content := by
  rcases h with ⟨es, hes, hentry⟩ | hentry
  · exact written_of_read hes entry hentry
  · exact written_of_salvage source entry hentry

/-- A literal that has been read, wherever it stands, is evaluated as a whole,
and what is chosen from it is what a walk comes to.  So an entity has a value
along every path or along none, and the error is the same. -/
theorem literals_are_walked (source : String) :
    (∀ entry, Yields source entry → ∀ root ∈ entry.exprs, ∀ e : Expr, e.Within root →
        e.isLiteral = true → ∀ env data scope frame, e.Weighs env data scope frame)
      ∧ ∀ e : Entity, Yields source (.entity e) → ∀ env data scope path path' x,
        valueAlong env data scope path e = .error x
          ↔ valueAlong env data scope path' e = .error x := by
  refine ⟨fun entry hentry root hroot e hwithin hl env data scope frame => ?_, ?_⟩
  · have hwritten : root.Written :=
      exprs_of_written (fun other hother => (List.mem_singleton.1 hother) ▸ hentry.written) entry
        (List.mem_singleton.2 rfl) root hroot
    exact Expr.WrittenLiteral.weighs ⟨hwritten.within hwithin, hl⟩ env data scope frame
  · intro e he env data scope path path' x
    unfold valueAlong
    cases hvalue : e.value with
    | none => exact Iff.rfl
    | some v =>
      have hwritten : e.Written := he.written.resolve_right fun ⟨_, h⟩ => nomatch h
      have hv := hwritten.value v hvalue
      dsimp only
      rw [← failureOf_eq_some_iff, ← failureOf_eq_some_iff,
        failureOf_eval env data scope .entity hv.1 hv.2,
        failureOf_eval env data scope .entity hv.1 hv.2]

/-- A walk does not come to the text that fails. -/
example (env : Environment) (data : Bindings) (scope : Scope) (frame : Frame) :
    let e : Expr := .array [.template [.binary .divide (.number 1) (.number 0)], .text "x"] (some 1)
    eval env data scope frame [] e = .error .divisionByZero
      ∧ Walks (eval env data scope frame []) [] e (.text "x") := by
  refine ⟨rfl, .element (.default ?_ rfl (by decide)) rfl (.text rfl rfl)⟩
  rintro i ⟨_, _, h, -⟩
  exact nomatch h

end Resource

end Phrasebook
