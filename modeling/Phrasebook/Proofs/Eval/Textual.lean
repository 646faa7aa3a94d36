/-
  Phrasebook.Proofs.Eval.Textual
  ────────────────────────────────
  **LOOKUPS GIVE TEXTS ONLY.**

  The expressions that are placed in a text compute with values of all kinds,
  and pass references around.  But each of them is displayed where it is
  placed, and nothing else than texts, arrays and hashes can be written as the
  value of an entity or of an attribute:

      Value.Textual         —  values that are made of texts
      eval_textual          —  a literal that can be written has no other value
      lookups_yield_text    —  so callers see nothing else, but that an entity
                               without a value is absent
-/
import Phrasebook.Eval.Lookup
import Phrasebook.Proofs.Expr.Settled
import Phrasebook.Proofs.Registry.Texts

namespace Phrasebook

/-! ## §1. Values that are made of texts. -/

/-- A value that is made of texts, by way of the arrays and hashes of a
literal.  A hash has the keys of a hash in the literal, in their order there,
and no key twice. -/
inductive Value.Textual (root : Expr) : Value → Prop where
  | text (s : String) : Textual root (.text s)
  | array {elements : List Value} (h : ∀ v ∈ elements, Textual root v) :
      Textual root (.array elements)
  | hash {items : List (String × Value)} {fields : List (Field Expr)} {default : Option String}
      (hroot : (Expr.hash fields default).Within root)
      (hkeys : items.map Prod.fst = Field.keys fields) (hnodup : (items.map Prod.fst).Nodup)
      (h : ∀ item ∈ items, Textual root item.2) : Textual root (.hash items)

theorem Expr.Within.trans {x y z : Expr} (hxy : x.Within y) (hyz : y.Within z) : x.Within z := by
  induction hyz with
  | refl => exact hxy
  | child hc _ ih => exact .child hc ih

namespace Value.Textual

variable {root : Expr} {v : Value}

/-- A value for a part of a literal is one for the whole of it. -/
theorem mono {part : Expr} (h : v.Textual part) (hpart : part.Within root) : v.Textual root := by
  induction h with
  | text s => exact .text s
  | array _ ih => exact .array ih
  | hash hroot hkeys hnodup _ ih => exact .hash (hroot.trans hpart) hkeys hnodup ih

theorem of_child {part : Expr} (h : v.Textual part) (hpart : part ∈ root.children) :
    v.Textual root :=
  h.mono (.child hpart (.refl part))

/-- There is no reference to follow. -/
theorem render_eq (h : v.Textual root) (scope : Scope) : scope.render v = .ok v := by
  cases h with
  | text | array | hash => rfl

end Value.Textual

/-! ## §2. Literals. -/

theorem nodup_keys_of_written {fields : List (Field Expr)} {default : Option String}
    (h : (Expr.hash fields default).Written) : (Field.keys fields).Nodup := by
  cases h with
  | hash _ _ => exact Field.nodup_keys_settle _

/-- What a walk comes to is made of texts, if texts are evaluated to texts. -/
theorem Walks.textual {evaluate : Expr → Except EvalError Value}
    (htexts : ∀ e v, e.isText = true → evaluate e = .ok v → ∃ s, v = .text s)
    {path : List Value} {e : Expr} {v : Value} (h : Walks evaluate path e v) (he : e.Written) :
    v.Textual e := by
  induction h with
  | text htext hv =>
    obtain ⟨s, rfl⟩ := htexts _ _ htext hv
    exact .text s
  | element _ hx _ ih =>
    have hchild := List.mem_of_getElem? hx
    exact (ih (he.child _ hchild)).of_child hchild
  | @array path elements default values _ hlength _ ih =>
    refine .array fun v hv => ?_
    obtain ⟨i, hi, rfl⟩ := List.mem_iff_getElem.1 hv
    have hx : elements[i]? = some elements[i] := List.getElem?_eq_getElem _
    have hchild := List.mem_of_getElem? hx
    exact (ih i _ _ hx (List.getElem?_eq_getElem hi) (he.child _ hchild)).of_child hchild
  | @item path items default f v htakes _ ih =>
    have hchild : f.value ∈ (Expr.hash items default).children := List.mem_map_of_mem htakes.mem
    exact (ih (he.child _ hchild)).of_child hchild
  | @hash path items default values _ hkeys _ ih =>
    have hlength : values.length = items.length := by simpa using congrArg List.length hkeys
    refine .hash (.refl _) hkeys (hkeys ▸ nodup_keys_of_written he) fun v hv => ?_
    obtain ⟨i, hi, rfl⟩ := List.mem_iff_getElem.1 hv
    have hf : items[i]? = some items[i] := List.getElem?_eq_getElem _
    have hchild : items[i].value ∈ (Expr.hash items default).children :=
      List.mem_map_of_mem (List.mem_of_getElem? hf)
    exact (ih i _ _ hf (List.getElem?_eq_getElem hi) (he.child _ hchild)).of_child hchild

theorem exists_text_of_eval {env : Environment} {data : Bindings} {scope : Scope} {frame : Frame}
    {e : Expr} {v : Value} (he : e.isText = true) (h : eval env data scope frame [] e = .ok v) :
    ∃ s, v = .text s := by
  obtain ⟨s, hs⟩ := (eval_text he).1 (failureOf_eq_none_iff.2 ⟨v, h⟩)
  exact ⟨s, Except.ok.inj (h.symm.trans hs)⟩

/-- A literal that can be written has no value but one that is made of texts,
whatever is selected. -/
theorem eval_textual {env : Environment} {data : Bindings} {scope : Scope} {frame : Frame}
    {path : List Value} {e : Expr} {v : Value} (he : e.WrittenLiteral)
    (h : eval env data scope frame path e = .ok v) : v.Textual e :=
  (eval_walks env data scope frame he.1 he.2 h).textual (fun _ _ => exists_text_of_eval) he.1

/-! ## §3. Lookups without rendering. -/

theorem bind_render_eq {x : Except EvalError Value} {scope : Scope}
    (h : ∀ v, x = .ok v → scope.render v = .ok v) : x >>= scope.render = x := by
  cases x with
  | error _ => rfl
  | ok v => exact h v rfl

namespace Entity

variable {env : Environment} {data : Bindings} {e : Entity} {inner : Scope} {path : List Value}

theorem Written.literal {f : Field Expr} (he : e.Written) (hf : f ∈ e.attributes) :
    f.value.WrittenLiteral :=
  he.attributes.value hf

/-- The value of an entity is made of texts, or it is absent because none is
written. -/
theorem Written.valueAlong_textual (he : e.Written) {v : Value}
    (h : valueAlong env data inner path e = .ok v) :
    (∃ root, e.value = some root ∧ v.Textual root) ∨ e.value = none ∧ v = .absent := by
  unfold valueAlong at h
  split at h
  · next root hroot => exact .inl ⟨root, hroot, eval_textual (he.value root hroot) h⟩
  · next hnone => exact .inr ⟨hnone, (Except.ok.inj h).symm⟩

/-- There is nothing to render in the value of an entity … -/
theorem Written.get_eq (he : e.Written) :
    e.get env data = indexPath env data (Scope.within env data (maxDepth - 1)) e
      >>= fun path => valueAlong env data (Scope.within env data (maxDepth - 1)) path e := by
  refine bind_render_eq fun v hv => ?_
  obtain ⟨path, -, hvalue⟩ := exists_of_bind_ok hv
  rcases he.valueAlong_textual hvalue with ⟨root, -, htextual⟩ | ⟨-, rfl⟩
  · exact htextual.render_eq _
  · rfl

theorem attributeOf_above {name : String} {f : Field Expr} (hf : e.attribute? name = some f) :
    (Scope.above env data (some inner)).attributeOf e name
      = indexPath env data inner e >>= fun path => eval env data inner .entity path f.value := by
  simp only [Scope.above, hf]

/-- … nor in that of an attribute, … -/
theorem Written.getAttribute_eq (he : e.Written) {name : String} {f : Field Expr}
    (hf : e.attribute? name = some f) :
    e.getAttribute env data name = indexPath env data (Scope.within env data (maxDepth - 1)) e
      >>= fun path => eval env data (Scope.within env data (maxDepth - 1)) .entity path f.value := by
  rw [← attributeOf_above hf]
  refine bind_render_eq fun v hv => ?_
  obtain ⟨path, -, hvalue⟩ := exists_of_bind_ok ((attributeOf_above hf).symm.trans hv)
  exact (eval_textual (he.literal (List.mem_of_find?_eq_some hf)) hvalue).render_eq _

theorem attributeValues_eq_evalItems {fs : List (Field Expr)}
    (h : ∀ f ∈ fs, f.value.WrittenLiteral) :
    attributeValues env data inner path fs = evalItems env data inner .entity path fs := by
  induction fs with
  | nil => rfl
  | cons f fs ih =>
    rw [attributeValues, evalItems, ih fun g hg => h g (List.mem_cons_of_mem _ hg)]
    cases heval : eval env data inner .entity path f.value with
    | error _ => rfl
    | ok v =>
      have hrender := (eval_textual (h f List.mem_cons_self) heval).render_eq inner
      show (inner.render v >>= _) = _
      rw [hrender]

/-- … nor in those of all attributes, which are evaluated like the items of a
hash. -/
theorem Written.getAttributes_eq (he : e.Written) :
    e.getAttributes env data = indexPath env data (Scope.within env data (maxDepth - 1)) e
      >>= fun path => evalItems env data (Scope.within env data (maxDepth - 1)) .entity path
        e.publicAttributes := by
  unfold getAttributes
  refine bind_congr fun path => attributeValues_eq_evalItems fun f hf => ?_
  exact he.literal (List.mem_filter.1 hf).1

/-! ## §4. What callers see. -/

/-- Callers see nothing of the entity but what is made of texts. -/
structure YieldsText (env : Environment) (data : Bindings) (e : Entity) : Prop where
  value : ∀ root v, e.value = some root → e.get env data = .ok v → v.Textual root
  /-- An entity is absent as a whole, if it has no value. -/
  absent : ∀ v, e.value = none → e.get env data = .ok v → v = .absent
  /-- This is so of local attributes as well. -/
  oneAttribute : ∀ name v, e.getAttribute env data name = .ok v →
    ∃ f ∈ e.attributes, f.key = name ∧ v.Textual f.value
  allAttributes : ∀ vs, e.getAttributes env data = .ok vs →
    ∀ p ∈ vs, ∃ f ∈ e.publicAttributes, f.key = p.1 ∧ p.2.Textual f.value

theorem Written.get_cases (he : e.Written) {v : Value} (h : e.get env data = .ok v) :
    (∃ root, e.value = some root ∧ v.Textual root) ∨ e.value = none ∧ v = .absent := by
  rw [he.get_eq] at h
  obtain ⟨path, -, h⟩ := exists_of_bind_ok h
  exact he.valueAlong_textual h

theorem Written.yieldsText (he : e.Written) (env : Environment) (data : Bindings) :
    e.YieldsText env data where
  value root v hroot h := by
    rcases he.get_cases h with ⟨root', hroot', htextual⟩ | ⟨hnone, -⟩
    · rwa [Option.some.inj (hroot.symm.trans hroot')]
    · exact nomatch hroot.symm.trans hnone
  absent v hnone h := by
    rcases he.get_cases h with ⟨root, hroot, -⟩ | ⟨-, rfl⟩
    · exact nomatch hnone.symm.trans hroot
    · rfl
  oneAttribute name v h := by
    cases hf : e.attribute? name with
    | none =>
      -- an attribute that is not there has no value
      obtain ⟨w, hlookup, -⟩ := exists_of_bind_ok h
      have hmissing : (Scope.within env data maxDepth).attributeOf e name
          = .error (.attributeNotFound e.id name) := by
        show (Scope.above env data (some _)).attributeOf e name = _
        simp only [Scope.above, hf]
      rw [hmissing] at hlookup
      simp only [reduceCtorEq] at hlookup
    | some f =>
      rw [he.getAttribute_eq hf] at h
      obtain ⟨path, -, h⟩ := exists_of_bind_ok h
      have hmem : f ∈ e.attributes := List.mem_of_find?_eq_some hf
      exact ⟨f, hmem, by simpa using List.find?_some hf, eval_textual (he.literal hmem) h⟩
  allAttributes vs h p hp := by
    rw [he.getAttributes_eq] at h
    obtain ⟨path, -, h⟩ := exists_of_bind_ok h
    obtain ⟨f, hmem, hkey, hvalue⟩ := (evalItems_eq_ok env data _ _ h).exists_of_mem hp
    exact ⟨_, hmem, hkey.symm, eval_textual (he.literal (List.mem_filter.1 hmem).1) hvalue⟩

end Entity

/-- Whatever the caller passes, whatever globals there are, and whatever the
host program does: an entity that was read from a text yields texts, and what
is made of them. -/
theorem lookups_yield_text {r : Registry} (hr : r.OfTexts) {id : String} {e : Stamped Entity}
    (he : r.findEntity? id = some e) (env : Environment) (data : Bindings) :
    e.it.YieldsText env data :=
  (hr.entity he).yieldsText env data

namespace Parcel

/-- A text that places another entity, what the caller passes and a global. -/
def source : String :=
  "<_label \"L\"> <parcel \x7bfrom: \"\x7b\x7b _label \x7d\x7d\",
    to: [\"\x7b\x7b $who \x7d\x7d\", \"\x7b\x7b @best \x7d\x7d\"]\x7d>"

def registry : Registry :=
  (Registry.empty.compile (Resource.salvage source).entries).1

theorem registry_ofTexts : registry.OfTexts :=
  .compile .empty fun _ he => ⟨source, .inr he⟩

def label : Stamped Entity :=
  ⟨0, ⟨"_label", true, some (.text "L"), [], []⟩⟩

/-- The value of the entity, as it is read. -/
def root : Expr :=
  .hash [⟨"from", .template [.name "_label"], false⟩,
    ⟨"to", .array [.template [.var "who"], .template [.global "best"]] none, false⟩] none

def parcel : Stamped Entity :=
  ⟨1, ⟨"parcel", false, some root, [], []⟩⟩

theorem find_parcel : registry.findEntity? "parcel" = some parcel := by
  cbv

/-- The caller passes a reference, and the global is a number. -/
theorem parcel_yields_text :
    let env : Environment := ⟨registry, [("best", .number 1)], fun _ _ _ => .ok .absent⟩
    let v : Value := .hash [("from", .text "L"), ("to", .array [.text "L", .text "1"])]
    (registry.OfTexts ∧ registry.findEntity? "parcel" = some parcel)
      ∧ parcel.it.get env [("who", .entity label)] = .ok v ∧ v.Textual root := by
  intro env v
  have hget : parcel.it.get env [("who", .entity label)] = .ok v := by cbv
  have hyields := lookups_yield_text registry_ofTexts find_parcel env [("who", .entity label)]
  exact ⟨⟨registry_ofTexts, find_parcel⟩, hget, hyields.value root v rfl hget⟩

end Parcel

end Phrasebook
