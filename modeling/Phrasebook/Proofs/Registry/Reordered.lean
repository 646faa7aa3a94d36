/-
  Phrasebook.Proofs.Registry.Reordered
  ────────────────────────────────
  **THE ORDER OF THE DEFINITIONS CANNOT BE SEEN.**

  A registry has each name once, so in whatever order its definitions stand,
  names are found, listed and suggested alike.  A reference then comes to the
  same in both orders, be it to a missing name, and so does all that is
  evaluated:

      Registry.Reordered, Environment.Reordered
                     —  the same definitions in another order
      find?_eq, publicIds_eq
                     —  the same names, with the same definitions
      reference_eq   —  the same references, and the same suggestions
      Environment.Reordered.alike
                     —  the same values and errors, whatever is asked
      compile_nodup  —  every registry that is filled has each name once
-/
import Phrasebook.Proofs.Entry.Names
import Phrasebook.Proofs.Eval.Respect
import Phrasebook.Proofs.Suggestion.Nearest

namespace Phrasebook

/-! ## §1. Registries. -/

namespace Registry

/-- The same definitions, each name once, in whatever order. -/
structure Reordered (r s : Registry) : Prop where
  nodup : r.ids.Nodup
  perm : r.definitions.Perm s.definitions

variable {r s : Registry}

namespace Reordered

theorem refl (h : r.ids.Nodup) : r.Reordered r := ⟨h, .refl _⟩

theorem ids_perm (h : r.Reordered s) : r.ids.Perm s.ids :=
  h.perm.map Prod.fst

theorem symm (h : r.Reordered s) : s.Reordered r :=
  ⟨h.ids_perm.nodup_iff.1 h.nodup, h.perm.symm⟩

theorem find?_eq (h : r.Reordered s) (id : String) : r.find? id = s.find? id := by
  refine Option.ext fun d => ?_
  -- where names come once, finding a definition is having it
  have hfound : r.find? id = some d ↔ (id, d) ∈ r.definitions := lookup_eq_some_iff h.nodup
  have hfound' : s.find? id = some d ↔ (id, d) ∈ s.definitions := lookup_eq_some_iff h.symm.nodup
  rw [hfound, hfound', h.perm.mem_iff]

theorem findEntity?_eq (h : r.Reordered s) (id : String) : r.findEntity? id = s.findEntity? id := by
  unfold findEntity?
  rw [h.find?_eq]

theorem publicIds_eq (h : r.Reordered s) : r.publicIds = s.publicIds :=
  sortTexts_eq_of_perm (h.perm.filterMap _)

end Reordered

/-- Each name still has one definition, whatever has been defined. -/
theorem compile_nodup {entries : List Entry} (h : r.ids.Nodup) :
    (r.compile entries).1.ids.Nodup := by
  refine compile_keeps (I := fun r => r.ids.Nodup) (fun e _ r next h hnext => ?_) h
  rcases addEntry_cases hnext with ⟨x, -, rfl⟩ | ⟨m, -, rfl⟩ | ⟨-, rfl⟩
  · exact replace_nodup h
  · exact replace_nodup h
  · exact h

end Registry

/-! ## §2. Environments. -/

namespace Environment

/-- The same environment, with the definitions in another order. -/
structure Reordered (env other : Environment) : Prop where
  registry : env.registry.Reordered other.registry
  globals : env.globals = other.globals
  host : env.host = other.host

/-- Nothing that is asked in the two environments tells them apart. -/
structure Alike (env other : Environment) : Prop where
  reference : ∀ name, env.reference name = other.reference name
  get : ∀ data (e : Entity), e.get env data = e.get other data
  getAttribute : ∀ data (e : Entity) name,
    e.getAttribute env data name = e.getAttribute other data name
  getAttributes : ∀ data (e : Entity), e.getAttributes env data = e.getAttributes other data
  getEntity : ∀ data (e : Entity), e.getEntity env data = e.getEntity other data
  call : ∀ data (m : Macro) arguments, m.call env data arguments = m.call other data arguments

theorem Reordered.reference_eq {env other : Environment} (h : env.Reordered other)
    (name : String) : env.reference name = other.reference name := by
  unfold reference
  rw [h.registry.find?_eq, suggestions_eq_of_perm h.registry.ids_perm]

end Environment

/-- Evaluation respects that results are the same. -/
def sameness : Congruence where
  rel x y := x = y
  same _ := rfl
  bind first next := by rw [first, funext next]

namespace Environment.Reordered

variable {env other : Environment}

theorem sameness_holds (h : env.Reordered other) : sameness.Holds env other where
  reference := h.reference_eq
  global name := by
    unfold global
    rw [h.globals]
  host name stamp arguments := by
    rw [h.host]
    rfl

/-- With the same definitions everything is evaluated alike. -/
theorem alike (h : env.Reordered other) : env.Alike other where
  reference := h.reference_eq
  get data e := e.get_respects data h.sameness_holds
  getAttribute data e name := e.getAttribute_respects data h.sameness_holds name
  getAttributes data e := e.getAttributes_respects data h.sameness_holds
  getEntity data e := e.getEntity_respects data h.sameness_holds
  call data m arguments := m.call_respects data h.sameness_holds arguments

end Environment.Reordered

end Phrasebook
