/-
  Phrasebook.Proofs.Registry.Texts
  ────────────────────────────────
  **REGISTRIES FILLED FROM TEXTS.**

  Whatever texts have been read, with recovery or without, and in however many
  steps their entries have been defined: every definition stands under its own
  name, and is one that a resource can spell.

      OfTexts          —  the registries that are filled from texts
      OfTexts.written  —  what their definitions have in common
-/
import Phrasebook.Proofs.Eval.Walk
import Phrasebook.Proofs.Registry.Filled

namespace Phrasebook

/-- A definition under its own name, which a resource can spell. -/
def Definition.Written (id : String) : Definition → Prop
  | .entity e => e.it.id = id ∧ e.it.Written
  | .macroDef m => m.it.id = id ∧ m.it.Written

theorem Resource.Yields.defines {source : String} {e : Entry} (h : Resource.Yields source e) :
    e.Defines Definition.Written := by
  rcases h.written with hwritten | ⟨content, rfl⟩
  · cases e with
    | entity x => exact fun _ => ⟨rfl, hwritten⟩
    | macroDef m => exact fun _ => ⟨rfl, hwritten⟩
    | importing _ | comment _ | junk _ => exact trivial
  · exact trivial

namespace Registry

/-- The registry holds what entries define that were read from texts, any
number of them in each of any number of steps. -/
inductive OfTexts : Registry → Prop where
  | empty : OfTexts .empty
  | compile {r : Registry} {entries : List Entry} (h : OfTexts r)
      (hentries : ∀ e ∈ entries, ∃ source, Resource.Yields source e) :
      OfTexts (r.compile entries).1

variable {r : Registry} {id : String} {e : Stamped Entity}

theorem OfTexts.written (h : r.OfTexts) : r.Holds Definition.Written := by
  induction h with
  | empty => exact empty_holds
  | compile _ hentries ih =>
    refine compile_holds (fun e he => ?_) ih
    obtain ⟨source, hsource⟩ := hentries e he
    exact hsource.defines

theorem find?_of_findEntity? (h : r.findEntity? id = some e) : r.find? id = some (.entity e) := by
  unfold findEntity? at h
  split at h
  · next hfind => rw [hfind, Option.some.inj h]
  · exact nomatch h

theorem OfTexts.entity (h : r.OfTexts) (he : r.findEntity? id = some e) : e.it.Written :=
  (h.written.find? (find?_of_findEntity? he)).2

end Registry

end Phrasebook
