/-
  Phrasebook.Proofs.Eval.Default
  ────────────────────────────────
  **THE DEFAULT OF A LITERAL.**

  The default of an array is its last starred element.  The default of a hash
  is not always its last starred item: it is looked for among the items that
  remain, and these stand where their keys were written first.  So a key that
  is written again with a star, late in the text, is taken for an early one:

      {a: "1", *b: "2", *a: "3"}    has the default `b`

      LastStarAt          —  the last star of an array
      ComesTo             —  a literal is evaluated to what one tree in it is
      array_default, hash_default
                          —  the default, and what is evaluated without a
                             selector
      literals_default    —  for all literals that can be read, and when the
                             default is the last starred item
-/
import Phrasebook.Proofs.Eval.Walk
import Phrasebook.Proofs.Expr.Settled
import Phrasebook.Proofs.Grammar.Listing

namespace Phrasebook

/-! ## §1. The last star of an array. -/

/-- The element at the position is starred, and no later one is. -/
def LastStarAt (written : List (Bool × Expr)) (i : Nat) : Prop :=
  ∃ before e after, written = before ++ (true, e) :: after ∧ before.length = i
    ∧ ∀ w ∈ after, w.1 = false

theorem lastStarred_append_singleton (written : List (Bool × Expr)) (w : Bool × Expr) :
    lastStarred (written ++ [w])
      = if w.1 = true then some written.length else lastStarred written := by
  unfold lastStarred
  rw [List.zipIdx_append, List.filter_append, List.getLast?_append]
  by_cases hstar : w.1 = true
  · simp [hstar]
  · simp [hstar]

theorem lastStarAt_append_singleton_iff {written : List (Bool × Expr)} {w : Bool × Expr}
    {i : Nat} :
    LastStarAt (written ++ [w]) i
      ↔ if w.1 = true then i = written.length else LastStarAt written i := by
  obtain ⟨star, e⟩ := w
  constructor
  · rintro ⟨before, e', after, heq, rfl, hafter⟩
    rcases List.eq_nil_or_concat after with rfl | ⟨middle, last, rfl⟩
    · obtain ⟨rfl, hlast⟩ := List.append_inj' heq rfl
      obtain ⟨rfl, -⟩ := Prod.mk.inj (List.cons.inj hlast).1
      rw [if_pos rfl]
    · rw [List.concat_eq_append] at heq hafter
      rw [← List.cons_append, ← List.append_assoc] at heq
      obtain ⟨rfl, hlast⟩ := List.append_inj' heq rfl
      obtain rfl := (List.cons.inj hlast).1
      have hstar : star = false := hafter (star, e) (List.mem_append_right _ List.mem_cons_self)
      rw [if_neg (by simp [hstar])]
      exact ⟨before, e', middle, rfl, rfl, fun w hw => hafter w (List.mem_append_left _ hw)⟩
  · by_cases hstar : star = true
    · rw [if_pos hstar]
      rintro rfl
      exact ⟨written, e, [], by rw [hstar], rfl, fun _ h => absurd h List.not_mem_nil⟩
    · rw [if_neg hstar]
      rintro ⟨before, e', after, rfl, rfl, hafter⟩
      refine ⟨before, e', after ++ [(star, e)], by simp, rfl, fun w hw => ?_⟩
      rcases List.mem_append.1 hw with hw | hw
      · exact hafter w hw
      · rw [List.mem_singleton.1 hw]
        exact Bool.eq_false_iff.2 hstar

theorem lastStarred_eq_some_iff {written : List (Bool × Expr)} {i : Nat} :
    lastStarred written = some i ↔ LastStarAt written i := by
  induction written using List.reverseRecOn with
  | nil =>
    refine iff_of_false nofun ?_
    rintro ⟨before, _, _, h, -⟩
    exact absurd h (by simp)
  | append_singleton written w ih =>
    rw [lastStarred_append_singleton, lastStarAt_append_singleton_iff, ← ih]
    split
    · rw [Option.some.injEq, eq_comm]
    · rfl

theorem lastStarred_eq_none_iff {written : List (Bool × Expr)} :
    lastStarred written = none ↔ ∀ w ∈ written, w.1 = false := by
  induction written using List.reverseRecOn with
  | nil => exact iff_of_true rfl fun _ h => absurd h List.not_mem_nil
  | append_singleton written w ih =>
    rw [lastStarred_append_singleton]
    by_cases hstar : w.1 = true
    · rw [if_pos hstar]
      refine iff_of_false nofun fun h => ?_
      exact absurd (h w (List.mem_append_right _ List.mem_cons_self)) (by simp [hstar])
    · rw [if_neg hstar, ih]
      simp only [List.mem_append, List.mem_singleton]
      constructor
      · rintro h w' (hw' | rfl)
        · exact h w' hw'
        · exact Bool.eq_false_iff.2 hstar
      · exact fun h w' hw' => h w' (.inl hw')

/-- The default is the position of an element. -/
theorem LastStarAt.getElem? {written : List (Bool × Expr)} {i : Nat} (h : LastStarAt written i) :
    ∃ e, written[i]? = some (true, e) := by
  obtain ⟨before, e, after, rfl, rfl, -⟩ := h
  exact ⟨e, by simp⟩

/-! ## §2. Evaluation without a selector. -/

section

variable (env : Environment) (data : Bindings) (scope : Scope) (frame : Frame)

/-- Along the path, the literal has the value that the tree has along the rest
of the path, provided that all the trees right below it have one. -/
def Expr.ComesTo (path : List Value) (e x : Expr) : Prop :=
  ∀ v, eval env data scope frame path e = .ok v
    ↔ (∀ y ∈ e.children, ∃ w, eval env data scope frame path.tail y = .ok w)
      ∧ eval env data scope frame path.tail x = .ok v

theorem exists_evalAll_iff (path : List Value) (es : List Expr) :
    (∃ vs, evalAll env data scope frame path es = .ok vs)
      ↔ ∀ y ∈ es, ∃ w, eval env data scope frame path y = .ok w := by
  rw [← failureOf_eq_none_iff, failureOf_evalAll, List.findSome?_eq_none_iff]
  exact forall₂_congr fun y _ => failureOf_eq_none_iff

theorem exists_evalItems_iff (path : List Value) (items : List (Field Expr)) :
    (∃ vs, evalItems env data scope frame path items = .ok vs)
      ↔ ∀ y ∈ items.map Field.value, ∃ w, eval env data scope frame path y = .ok w := by
  rw [← failureOf_eq_none_iff, failureOf_evalItems, List.findSome?_eq_none_iff, List.forall_mem_map]
  exact forall₂_congr fun f _ => failureOf_eq_none_iff

/-- Once all parts have values, a literal comes to the one that is picked. -/
theorem comesTo_of_picked {γ : Type} {path : List Value} {e x : Expr}
    {parts : Except EvalError γ} {pick : γ → Value}
    (heval : eval env data scope frame path e = parts >>= fun vs => pure (pick vs))
    (hparts : (∃ vs, parts = .ok vs)
      ↔ ∀ y ∈ e.children, ∃ w, eval env data scope frame path.tail y = .ok w)
    (hpick : ∀ vs, parts = .ok vs → eval env data scope frame path.tail x = .ok (pick vs)) :
    e.ComesTo env data scope frame path x := by
  intro v
  rw [heval, ← hparts]
  constructor
  · intro h
    obtain ⟨vs, hvs, h⟩ := exists_of_bind_ok h
    obtain rfl := Except.ok.inj h
    exact ⟨⟨vs, hvs⟩, hpick vs hvs⟩
  · rintro ⟨⟨vs, hvs⟩, hv⟩
    obtain rfl := Except.ok.inj (hv.symm.trans (hpick vs hvs))
    rw [hvs]
    rfl

theorem array_comesTo {path : List Value} {elements : List Expr} {i : Nat} {x : Expr}
    (hnone : ∀ j, ¬ SelectsElement path elements.length j) (hx : elements[i]? = some x) :
    (Expr.array elements (some i)).ComesTo env data scope frame path x := by
  have hparts := exists_evalAll_iff env data scope frame path.tail elements
  refine comesTo_of_picked env data scope frame rfl hparts fun vs hvs => ?_
  have hall := evalAll_eq_ok env data scope frame hvs
  have hlength := hall.length_eq
  obtain ⟨hi, -⟩ := List.getElem?_eq_some_iff.1 hx
  rw [hlength] at hnone hi
  rcases pickElement_cases path (some i) vs with ⟨j, w, htakes, hw, hpick⟩ | ⟨htakes, -⟩
  · rw [hpick]
    obtain rfl := htakes.unique (.default hnone rfl hi)
    exact forall₂_getElem? hall hx hw
  · exact absurd (.default hnone rfl hi) (htakes i)

theorem hash_comesTo {path : List Value} {items : List (Field Expr)} {key : String}
    {f : Field Expr} (hnone : ∀ g, ¬ SelectsItem path items g) (hf : itemAt? items key = some f) :
    (Expr.hash items (some key)).ComesTo env data scope frame path f.value := by
  have hparts := exists_evalItems_iff env data scope frame path.tail items
  refine comesTo_of_picked env data scope frame rfl hparts fun vs hvs => ?_
  have hall := evalItems_eq_ok env data scope frame hvs
  rcases pickItem_cases hall path (some key) with ⟨g, w, htakes, hw, hpick⟩ | ⟨htakes, -⟩
  · rw [hpick]
    obtain rfl := htakes.unique (.default hnone rfl hf)
    exact hw
  · exact absurd (.default hnone rfl hf) (htakes f)

end

/-! ## §3. The default. -/

/-- How the default of an array, and its value without a selector, follow from
the elements written. -/
structure ArrayDefault (written : List (Bool × Expr)) (elements : List Expr)
    (default : Option Nat) : Prop where
  built : elements = written.map Prod.snd
  /-- It is the last star. -/
  some_iff : ∀ i, default = some i ↔ LastStarAt written i
  none_iff : default = none ↔ ∀ w ∈ written, w.1 = false
  evaluated : ∀ i, default = some i → ∃ x, elements[i]? = some x ∧
    ∀ env data scope frame path, (∀ j, ¬ SelectsElement path elements.length j) →
      (Expr.array elements default).ComesTo env data scope frame path x

theorem array_default (written : List (Bool × Expr)) :
    ArrayDefault written (written.map Prod.snd) (lastStarred written) where
  built := rfl
  some_iff _ := lastStarred_eq_some_iff
  none_iff := lastStarred_eq_none_iff
  evaluated i hi := by
    obtain ⟨e, he⟩ := (lastStarred_eq_some_iff.1 hi).getElem?
    have hx : (written.map Prod.snd)[i]? = some e := by rw [List.getElem?_map, he]; rfl
    refine ⟨e, hx, fun env data scope frame path hnone => ?_⟩
    rw [hi]
    exact array_comesTo env data scope frame hnone hx

/-- How the default of a hash, and its value without a selector, follow from
the items written. -/
structure HashDefault (written items : List (Field Expr)) (default : Option String) : Prop where
  built : items = Field.settle written
  /-- It is the starred item that stands and whose key is written first after
  the keys of all others. -/
  some_iff : ∀ k, default = some k ↔ ∃ f, Field.StarStanding written f ∧ f.key = k ∧
    ∀ g, Field.StarStanding written g → Field.firstAt written g.key ≤ Field.firstAt written k
  none_iff : default = none ↔ Field.lastStanding written = none
  /-- It is the last starred item that stands, unless another one has a key
  that is written first after its own. -/
  last_iff : default = (Field.lastStanding written).map Field.key ↔
    ∀ f, Field.lastStanding written = some f → ∀ g, Field.StarStanding written g →
      Field.firstAt written g.key ≤ Field.firstAt written f.key
  /-- Where no key is written twice, it is the last starred item. -/
  distinct : (Field.keys written).Nodup →
    default = (Field.lastStanding written).map Field.key
      ∧ Field.lastStanding written = (written.filter Field.starred).getLast?
  evaluated : ∀ k, default = some k → ∃ f, Field.StarStanding written f ∧ f.key = k ∧
    ∀ env data scope frame path, (∀ g, ¬ SelectsItem path items g) →
      (Expr.hash items default).ComesTo env data scope frame path f.value

theorem hash_default (written : List (Field Expr)) :
    HashDefault written (Field.settle written) (starredKey (Field.settle written)) where
  built := rfl
  some_iff _ := Field.starredKey_settle_eq_some_iff
  none_iff := by rw [Field.starredKey_settle_eq_none_iff, Field.lastStanding_eq_none_iff]
  last_iff := Field.starredKey_settle_eq_lastStanding_iff
  distinct hnodup := by
    rw [Field.settle_of_nodup hnodup, Field.lastStanding_of_nodup hnodup]
    exact ⟨rfl, rfl⟩
  evaluated k hk := by
    obtain ⟨f, hf, rfl, -⟩ := Field.starredKey_settle_eq_some_iff.1 hk
    refine ⟨f, hf, rfl, fun env data scope frame path hnone => ?_⟩
    have hitem : itemAt? (Field.settle written) f.key = some f :=
      Field.find?_key_of_mem (Field.nodup_keys_settle written) (Field.mem_settle_iff.2 hf.1)
    rw [hk]
    exact hash_comesTo env data scope frame hnone hitem

/-- **The default of a literal, for all that can be read.**  An array was
written with elements, and its default is the last starred one.  A hash was
written with items, and its default is starred and not written again; of
several such items it is not the last one, but the one whose key was written
first after the keys of the others.  Without a selector, either comes to its
default. -/
theorem literals_default (n : Nat) (s r : List Char) :
    (∀ elements default, (nested (n + 1)).literal s = .ok (.array elements default) r →
        (∃ written, ArrayText (nested n) s written r)
          ∧ ∀ written q, ArrayText (nested n) s written q → ArrayDefault written elements default)
      ∧ ∀ items default, (nested (n + 1)).literal s = .ok (.hash items default) r →
        (∃ written, HashText (nested n) s written r)
          ∧ ∀ written q, HashText (nested n) s written q → HashDefault written items default := by
  constructor
  · intro elements default h
    obtain ⟨written, htext, rfl, rfl⟩ := literal_array (nested_lawful n) h
    refine ⟨⟨written, htext⟩, fun written' q htext' => ?_⟩
    rw [← (htext.unique htext').1]
    exact array_default written
  · intro items default h
    obtain ⟨written, htext, rfl, rfl⟩ := literal_hash (nested_lawful n) h
    refine ⟨⟨written, htext⟩, fun written' q htext' => ?_⟩
    rw [← (htext.unique htext').1]
    exact hash_default written

namespace Menu

/-- A hash with a key that is written again, with a star. -/
def menu : List Char :=
  "\x7ba: \"1\", *b: \"2\", *a: \"3\"\x7d".toList

/-- Its items in the order of the text. -/
def dishes : List (Field Expr) :=
  [⟨"a", .text "1", false⟩, ⟨"b", .text "2", true⟩, ⟨"a", .text "3", true⟩]

/-- The items that remain. -/
def served : List (Field Expr) :=
  [⟨"a", .text "3", true⟩, ⟨"b", .text "2", true⟩]

theorem literal_menu : (nested 2).literal menu = .ok (.hash served (some "b")) [] := by
  cbv

/-- The items are read off the text behind the bracket. -/
theorem hashText_menu : HashText (nested 1) menu dishes [] := by
  have hlist : Parser.looseList .hash (hashItem (nested 1))
      "a: \"1\", *b: \"2\", *a: \"3\"\x7d".toList = .ok dishes [] := by cbv
  have hlisted := listed_of_looseList rfl (hashItem_reads (nested_lawful 1)) hlist
  exact ⟨_, by cbv, hlisted.mono fun _ _ _ => itemText_of_hashItem⟩

/-- The default is `b`, and without a selector the hash is its value; of an
array it is the last star. -/
theorem menu_default :
    (nested 2).literal menu = .ok (.hash served (some "b")) []
      ∧ (HashText (nested 1) menu dishes [] ∧ HashDefault dishes served (some "b"))
      ∧ (∀ env data scope frame,
          eval env data scope frame [] (.hash served (some "b")) = .ok (.text "2"))
      ∧ ∃ written, ArrayDefault written [.text "1", .text "2", .text "3"] (some 1) := by
  have harray : (nested 2).literal "[\"1\", *\"2\", \"3\"]".toList
      = .ok (.array [.text "1", .text "2", .text "3"] (some 1)) [] := by cbv
  have hdefault := ((literals_default 1 menu []).2 _ _ literal_menu).2 dishes [] hashText_menu
  obtain ⟨⟨elements, htext⟩, helements⟩ := (literals_default 1 _ []).1 _ _ harray
  refine ⟨literal_menu, ⟨hashText_menu, hdefault⟩, fun env data scope frame => ?_, elements,
    helements elements [] htext⟩
  obtain ⟨f, hf, hkey, hcomes⟩ := hdefault.evaluated "b" rfl
  have hvalue : f.value = .text "2" := by
    have hmem := hf.1.mem
    simp only [dishes, List.mem_cons, List.not_mem_nil, or_false] at hmem
    rcases hmem with rfl | rfl | rfl
    · exact absurd hkey (by decide)
    · rfl
    · exact absurd hkey (by decide)
  rw [hvalue] at hcomes
  refine (hcomes env data scope frame [] ?_ (.text "2")).2 ⟨?_, rfl⟩
  · rintro g ⟨_, _, hpath, -⟩
    exact List.cons_ne_nil _ _ hpath.symm
  · intro y hy
    simp only [Expr.children, served, List.map_cons, List.map_nil, List.mem_cons,
      List.not_mem_nil, or_false] at hy
    rcases hy with rfl | rfl
    · exact ⟨_, rfl⟩
    · exact ⟨_, rfl⟩

/-- The last starred item is `a`, and it is not written again. -/
theorem menu_default_is_not_last :
    Field.lastStanding dishes = some ⟨"a", .text "3", true⟩
      ∧ ¬ ∀ n s r items default, (nested (n + 1)).literal s = .ok (.hash items default) r →
          ∃ written, HashText (nested n) s written r
            ∧ default = (Field.lastStanding written).map Field.key := by
  refine ⟨rfl, fun last => ?_⟩
  obtain ⟨written, htext, hdefault⟩ := last 1 menu [] served (some "b") literal_menu
  obtain rfl := (hashText_menu.unique htext).1
  have hkeys : some "b" = some "a" := hdefault
  exact absurd hkeys (by decide)

end Menu

end Phrasebook
