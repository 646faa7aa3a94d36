/-
  Phrasebook.Proofs.Eval.Getters
  ────────────────────────────────
  **ONE ATTRIBUTE, ALL ATTRIBUTES.**

  An attribute can be asked for by its name, or together with all the others.
  The index of the entity is evaluated anew for each one that is asked for, but
  once for all of them; and what comes out is rendered one level further up or
  down.  Neither makes a difference:

      getAttribute_of_public  —  one attribute, by its item
      getAttributes_ok, getAttributes_error
                              —  all attributes, by the answers for each
      getters_agree           —  this, and the value together with them
-/
import Phrasebook.Proofs.Eval.Textual

namespace Phrasebook

namespace Entity

variable {env : Environment} {data : Bindings} {e : Entity}

/-! ## §1. The names of attributes. -/

theorem attributeNames_public : ∀ name ∈ e.attributeNames, isLocalName name = false := by
  intro name hname
  obtain ⟨f, hf, rfl⟩ := List.mem_map.1 hname
  have hpublic : (!f.isLocal) = true := (List.mem_filter.1 hf).2
  exact (Bool.not_eq_true' _).mp hpublic

theorem attributeValues_names {inner : Scope} {path : List Value} {fs : List (Field Expr)}
    {vs : List (String × Value)} (h : attributeValues env data inner path fs = .ok vs) :
    vs.map Prod.fst = fs.map Field.key := by
  induction fs generalizing vs with
  | nil =>
    rw [← Except.ok.inj h]
    rfl
  | cons f fs ih =>
    obtain ⟨v, -, h⟩ := exists_of_bind_ok h
    obtain ⟨w, -, h⟩ := exists_of_bind_ok h
    obtain ⟨ws, hlater, h⟩ := exists_of_bind_ok h
    rw [← Except.ok.inj h]
    exact congrArg (f.key :: ·) (ih hlater)

theorem attributeNames_sublist (e : Entity) :
    e.attributeNames.Sublist (Field.keys e.attributes) :=
  List.Sublist.map Field.key List.filter_sublist

theorem mem_attributeNames {name : String} :
    name ∈ e.attributeNames ↔ e.hasAttribute name = true ∧ isLocalName name = false := by
  unfold hasAttribute attribute?
  rw [List.find?_isSome]
  constructor
  · intro hname
    refine ⟨?_, attributeNames_public name hname⟩
    obtain ⟨f, hf, rfl⟩ := List.mem_map.1 hname
    exact ⟨f, (List.mem_filter.1 hf).1, beq_self_eq_true f.key⟩
  · rintro ⟨⟨f, hf, hkey⟩, hpublic⟩
    obtain rfl := eq_of_beq hkey
    exact List.mem_map.2 ⟨f, List.mem_filter.2 ⟨hf, by rw [Field.isLocal, hpublic]; rfl⟩, rfl⟩

theorem Written.nodup_keys (he : e.Written) : (Field.keys e.attributes).Nodup := by
  obtain ⟨written, hwritten, -⟩ := he.attributes
  rw [hwritten]
  exact Field.nodup_keys_settle written

/-! ## §2. One attribute and all of them. -/

/-- The first error is that of the first name whose attribute fails. -/
def FailsFirst (env : Environment) (data : Bindings) (e : Entity) (names : List String)
    (x : EvalError) : Prop :=
  ∃ before name after, names = before ++ name :: after
    ∧ (∀ other ∈ before, ∃ v, e.getAttribute env data other = .ok v)
    ∧ e.getAttribute env data name = .error x

theorem Written.getAttribute_of_public (he : e.Written) {f : Field Expr}
    (hf : f ∈ e.publicAttributes) :
    e.getAttribute env data f.key = indexPath env data (Scope.within env data (maxDepth - 1)) e
      >>= fun path => eval env data (Scope.within env data (maxDepth - 1)) .entity path f.value :=
  he.getAttribute_eq (Field.find?_key_of_mem he.nodup_keys (List.mem_filter.1 hf).1)

/-- All attributes have the values that each of them has. -/
theorem Written.getAttributes_ok (he : e.Written) {vs : List (String × Value)}
    (h : e.getAttributes env data = .ok vs) :
    vs.map Prod.fst = e.attributeNames ∧ ∀ p ∈ vs, e.getAttribute env data p.1 = .ok p.2 := by
  rw [he.getAttributes_eq] at h
  obtain ⟨path, hpath, h⟩ := exists_of_bind_ok h
  have hall := evalItems_eq_ok env data _ _ h
  refine ⟨hall.keys, fun p hp => ?_⟩
  obtain ⟨f, hf, hkey, hvalue⟩ := hall.exists_of_mem hp
  rw [hkey, he.getAttribute_of_public hf, hpath]
  exact hvalue

/-- If they fail, then as the first of them that fails. -/
theorem Written.getAttributes_error (he : e.Written) {x : EvalError}
    (h : e.getAttributes env data = .error x) (hany : e.attributeNames ≠ []) :
    e.FailsFirst env data e.attributeNames x := by
  rw [he.getAttributes_eq] at h
  cases hpath : indexPath env data (Scope.within env data (maxDepth - 1)) e with
  | error y =>
    -- the index fails for each of them, and so for the first one
    rw [hpath] at h
    obtain ⟨f, fs, hfs⟩ := List.exists_cons_of_ne_nil fun hnil => hany (congrArg _ hnil)
    have hf : f ∈ e.publicAttributes := hfs ▸ List.mem_cons_self
    refine ⟨[], f.key, fs.map Field.key, congrArg _ hfs, nofun, ?_⟩
    rw [he.getAttribute_of_public hf, hpath, ← Except.error.inj h]
    rfl
  | ok path =>
    rw [hpath] at h
    have hitems : evalItems env data (Scope.within env data (maxDepth - 1)) .entity path
        e.publicAttributes = .error x := h
    rw [← failureOf_eq_some_iff, failureOf_evalItems, List.findSome?_eq_some_iff] at hitems
    obtain ⟨before, f, after, hsplit, hf, hbefore⟩ := hitems
    have heval : ∀ g ∈ e.publicAttributes, e.getAttribute env data g.key
        = eval env data (Scope.within env data (maxDepth - 1)) .entity path g.value := by
      intro g hg
      rw [he.getAttribute_of_public hg, hpath]
      rfl
    refine ⟨before.map Field.key, f.key, after.map Field.key, ?_, fun name hname => ?_, ?_⟩
    · rw [attributeNames, hsplit, List.map_append, List.map_cons]
    · obtain ⟨g, hg, rfl⟩ := List.mem_map.1 hname
      rw [heval g (hsplit ▸ List.mem_append_left _ hg)]
      exact failureOf_eq_none_iff.1 (hbefore g hg)
    · rw [heval f (hsplit ▸ List.mem_append_right _ List.mem_cons_self)]
      exact failureOf_eq_some_iff.1 hf

/-! ## §3. The value and all attributes. -/

theorem getEntity_eq_ok_iff {v : EntityValue} :
    e.getEntity env data = .ok v
      ↔ e.get env data = .ok v.value ∧ e.getAttributes env data = .ok v.attributes := by
  unfold getEntity
  cases e.get env data with
  | error x => exact iff_of_false nofun nofun
  | ok value =>
    cases e.getAttributes env data with
    | error x => exact iff_of_false nofun nofun
    | ok vs =>
      obtain ⟨value', vs'⟩ := v
      show Except.ok (EntityValue.mk value vs) = Except.ok ⟨value', vs'⟩ ↔ _
      simp only [Except.ok.injEq, EntityValue.mk.injEq]

theorem getEntity_eq_error_iff {x : EvalError} :
    e.getEntity env data = .error x
      ↔ e.get env data = .error x
        ∨ (∃ v, e.get env data = .ok v) ∧ e.getAttributes env data = .error x := by
  rw [getEntity, bind_eq_error_iff, ← exists_and_right]
  refine or_congr_right (exists_congr fun value => and_congr_right fun _ => ?_)
  rw [← failureOf_eq_some_iff, failureOf_map, failureOf_eq_some_iff]

/-- The ways to ask for the value and the attributes of an entity agree. -/
structure GettersAgree (env : Environment) (data : Bindings) (e : Entity) : Prop where
  /-- The names are those of the public attributes, in the order in which they
  are declared, and no name comes twice. -/
  names_iff : ∀ name, name ∈ e.attributeNames
    ↔ e.hasAttribute name = true ∧ isLocalName name = false
  names_sublist : e.attributeNames.Sublist (Field.keys e.attributes)
  names_nodup : e.attributeNames.Nodup
  attributes_ok : ∀ vs, e.getAttributes env data = .ok vs →
    vs.map Prod.fst = e.attributeNames ∧ ∀ p ∈ vs, e.getAttribute env data p.1 = .ok p.2
  attributes_error : ∀ x, e.getAttributes env data = .error x → e.attributeNames ≠ [] →
    e.FailsFirst env data e.attributeNames x
  entity_ok_iff : ∀ v, e.getEntity env data = .ok v
    ↔ e.get env data = .ok v.value ∧ e.getAttributes env data = .ok v.attributes
  entity_error_iff : ∀ x, e.getEntity env data = .error x
    ↔ e.get env data = .error x
      ∨ (∃ v, e.get env data = .ok v) ∧ e.getAttributes env data = .error x

end Entity

/-- The getters agree for every entity that was read from a text, in whatever
environment. -/
theorem getters_agree {r : Registry} (hr : r.OfTexts) {id : String} {e : Stamped Entity}
    (he : r.findEntity? id = some e) (env : Environment) (data : Bindings) :
    e.it.GettersAgree env data := by
  have hwritten := hr.entity he
  exact {
    names_iff := fun _ => Entity.mem_attributeNames
    names_sublist := e.it.attributeNames_sublist
    names_nodup := e.it.attributeNames_sublist.nodup hwritten.nodup_keys
    attributes_ok := fun _ => hwritten.getAttributes_ok
    attributes_error := fun _ => hwritten.getAttributes_error
    entity_ok_iff := fun _ => Entity.getEntity_eq_ok_iff
    entity_error_iff := fun _ => Entity.getEntity_eq_error_iff }

namespace Door

/-- An entity with an index, two public attributes and a local one. -/
def source : String :=
  "<door[$n] [\"open\", \"shut\"] knob: [\"left\", \"right\"] bell: \"\x7b\x7b 1 / 0 \x7d\x7d\" "
    ++ "_key: \"k\">"

def registry : Registry :=
  (Registry.empty.compile (Resource.salvage source).entries).1

theorem registry_ofTexts : registry.OfTexts :=
  .compile .empty fun _ he => ⟨source, .inr he⟩

def door : Stamped Entity :=
  ⟨0, ⟨"door", false, some (.array [.text "open", .text "shut"] none), [.var "n"],
    [⟨"knob", .array [.text "left", .text "right"] none, false⟩,
      ⟨"bell", .template [.binary .divide (.number 1) (.number 0)], false⟩,
      ⟨"_key", .text "k", false⟩]⟩⟩

theorem find_door : registry.findEntity? "door" = some door := by
  cbv

/-- The first public attribute has a value, and the second one fails; so all
of them fail, and the entity does as a whole. -/
theorem door_getters :
    let env : Environment := ⟨registry, [], fun _ _ _ => .ok .absent⟩
    let data : Bindings := [("n", .number 1)]
    (registry.OfTexts ∧ registry.findEntity? "door" = some door)
      ∧ (door.it.attributeNames = ["knob", "bell"] ∧ door.it.attributeNames ≠ [])
      ∧ door.it.getAttribute env data "knob" = .ok (.text "right")
      ∧ door.it.FailsFirst env data ["knob", "bell"] .divisionByZero
      ∧ door.it.getEntity env data = .error .divisionByZero := by
  intro env data
  have hagree := getters_agree registry_ofTexts find_door env data
  have hget : door.it.get env data = .ok (.text "shut") := by cbv
  have hall : door.it.getAttributes env data = .error .divisionByZero := rfl
  have hnames : door.it.attributeNames = ["knob", "bell"] := rfl
  have hany : door.it.attributeNames ≠ [] := List.cons_ne_nil _ _
  exact ⟨⟨registry_ofTexts, find_door⟩, ⟨hnames, hany⟩, by cbv, hagree.attributes_error _ hall hany,
    (hagree.entity_error_iff _).2 (.inr ⟨⟨_, hget⟩, hall⟩)⟩

end Door

end Phrasebook
