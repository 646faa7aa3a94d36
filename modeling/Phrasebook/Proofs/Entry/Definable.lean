/-
  Phrasebook.Proofs.Entry.Definable
  ────────────────────────────────
  **WHAT CAN BE READ CAN BE DEFINED.**

  Readers and definitions make the same checks, at different times: attributes
  have a base that can have them, and macros have public names.  So an entry
  that has been read always becomes a definition, whatever is defined already:

      Entry.Written.definable  —  of one entry
      compile_eq_of_definable  —  of all, one definition counted for each
      definable_of_read, definable_of_salvage  —  of what is read, either way
-/
import Phrasebook.Proofs.Resource.Agreement
import Phrasebook.Registry

namespace Phrasebook

/-! ## §1. One entry. -/

/-- The entry can be defined, whatever is defined already. -/
def Entry.Definable (e : Entry) : Prop :=
  ∀ r : Registry, ∃ r', r.addEntry e = .ok r'

theorem Expr.WrittenLiteral.isSound {e : Expr} (h : e.WrittenLiteral) : e.isSound = true :=
  h.1.isSound

theorem Entity.Written.check_eq {e : Entity} (h : e.Written) : e.check = .ok e := by
  have hvalue : Expr.areSound e.value.toList = true :=
    Expr.areSound_iff.2 fun v hv => (h.value v (Option.mem_toList.1 hv)).isSound
  have hindex : Expr.areSound e.index = true :=
    Expr.areSound_iff.2 fun i hi => (h.index i hi).isSound
  have hattributes : Expr.areItemsSound e.attributes = true :=
    Expr.areItemsSound_iff.2 fun f hf => (h.attributes.value hf).isSound
  unfold Entity.check
  rw [hvalue, hindex, hattributes]
  rfl

theorem Macro.Written.check_eq {m : Macro} (h : m.Written) : m.check = .ok m := by
  unfold Macro.check
  rw [h.isPublic, h.body.isSound]
  rfl

/-- An entry that can be written can be defined. -/
theorem Entry.Written.definable {e : Entry} (h : e.Written) : e.Definable := by
  intro r
  cases e with
  | entity e =>
    rw [Registry.addEntry, Entity.Written.check_eq h]
    exact ⟨_, rfl⟩
  | macroDef m =>
    rw [Registry.addEntry, Macro.Written.check_eq h]
    exact ⟨_, rfl⟩
  | importing uri => exact ⟨r, rfl⟩
  | comment content => exact ⟨r, rfl⟩
  | junk content => exact ⟨r, rfl⟩

theorem Entry.definable_junk (content : String) : (Entry.junk content).Definable :=
  fun r => ⟨r, rfl⟩

/-! ## §2. All entries. -/

namespace Registry

theorem compileFrom_of_definable {entries : List Entry} (h : ∀ e ∈ entries, e.Definable)
    (count : Nat) (r : Registry) :
    ∃ r', r.compileFrom count entries = (r', .ok (count + Entry.countDefinitions entries)) := by
  induction entries generalizing count r with
  | nil => exact ⟨r, rfl⟩
  | cons e entries ih =>
    obtain ⟨r₁, h₁⟩ := h e List.mem_cons_self r
    have hothers : ∀ e ∈ entries, e.Definable := fun e he => h e (List.mem_cons_of_mem _ he)
    obtain ⟨r₂, h₂⟩ := ih hothers (if e.isDefinition then count + 1 else count) r₁
    refine ⟨r₂, ?_⟩
    -- the count goes up for definitions only
    rw [compileFrom, h₁]
    simp only [h₂, Entry.countDefinitions, List.countP_cons]
    split
    · rw [Nat.add_assoc, Nat.add_comm 1]
    · rfl

/-- Definable entries are all defined, and each definition is counted. -/
theorem compile_eq_of_definable {entries : List Entry} (h : ∀ e ∈ entries, e.Definable)
    (r : Registry) : ∃ r', r.compile entries = (r', .ok (Entry.countDefinitions entries)) := by
  obtain ⟨r', hr⟩ := compileFrom_of_definable h 0 r
  rw [Nat.zero_add] at hr
  exact ⟨r', hr⟩

theorem addEntries_of_definable {entries : List Entry} (h : ∀ e ∈ entries, e.Definable)
    (r : Registry) : ∃ r', r.addEntries entries = (r', none) := by
  obtain ⟨r', hr⟩ := compile_eq_of_definable h r
  unfold addEntries
  rw [hr]
  exact ⟨r', rfl⟩

end Registry

/-! ## §3. What is read. -/

namespace Resource

/-- What is read with recovery can be defined. -/
theorem definable_of_salvage (source : String) :
    ∀ e ∈ (salvage source).entries, e.Definable := by
  intro e he
  rcases written_of_salvage source e he with h | ⟨content, rfl⟩
  · exact h.definable
  · exact Entry.definable_junk content

/-- What is read strictly can be defined. -/
theorem definable_of_read {source : String} {entries : List Entry}
    (h : read source = .ok entries) : ∀ e ∈ entries, e.Definable := by
  intro e he
  rcases written_of_read h e he with h | ⟨content, rfl⟩
  · exact h.definable
  · exact Entry.definable_junk content

end Resource

end Phrasebook
