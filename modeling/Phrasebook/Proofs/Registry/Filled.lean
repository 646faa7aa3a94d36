/-
  Phrasebook.Proofs.Registry.Filled
  ────────────────────────────────
  **WHAT FILLING A REGISTRY KEEPS.**

  An entry defines its own name, or nothing at all.  So whatever one entry
  keeps is kept by all of them, in whatever order they come, and however
  often they define a name anew:

      addEntry_cases  —  all that one entry can do to a registry
      compile_keeps   —  what each entry keeps, and so do all of them
      Holds           —  what all definitions of a registry have in common
      compile_holds   —  it is kept if the new definitions have it as well
-/
import Phrasebook.Registry

namespace Phrasebook

namespace Registry

variable {r next : Registry} {entries : List Entry} {id : String} {d : Definition}

/-! ## §1. One entry, and all entries. -/

/-- An entry defines its own name as what it says, or it defines nothing. -/
theorem addEntry_cases {e : Entry} (h : r.addEntry e = .ok next) :
    (∃ x, e = .entity x ∧ next = r.define x.id fun stamp => .entity ⟨stamp, x⟩)
      ∨ (∃ m, e = .macroDef m ∧ next = r.define m.id fun stamp => .macroDef ⟨stamp, m⟩)
      ∨ e.isDefinition = false ∧ next = r := by
  cases e with
  | entity x =>
    rw [addEntry, Entity.check] at h
    split at h
    · exact .inl ⟨x, rfl, (Except.ok.inj h).symm⟩
    · exact nomatch h
  | macroDef m =>
    rw [addEntry, Macro.check] at h
    split at h
    · exact nomatch h
    · split at h
      · exact .inr (.inl ⟨m, rfl, (Except.ok.inj h).symm⟩)
      · exact nomatch h
  | importing _ | comment _ | junk _ => exact .inr (.inr ⟨rfl, (Except.ok.inj h).symm⟩)

theorem compileFrom_keeps {I : Registry → Prop}
    (step : ∀ e ∈ entries, ∀ r next : Registry, I r → r.addEntry e = .ok next → I next)
    (count : Nat) (h : I r) : I (r.compileFrom count entries).1 := by
  induction entries generalizing count r with
  | nil => exact h
  | cons e entries ih =>
    rw [compileFrom]
    cases hadd : r.addEntry e with
    | error x => exact h
    | ok next =>
      refine ih (fun e he => step e (List.mem_cons_of_mem _ he)) _ ?_
      exact step e List.mem_cons_self r next h hadd

/-- What every entry keeps is kept by all of them, also if one of them fails
its check. -/
theorem compile_keeps {I : Registry → Prop}
    (step : ∀ e ∈ entries, ∀ r next : Registry, I r → r.addEntry e = .ok next → I next)
    (h : I r) : I (r.compile entries).1 :=
  compileFrom_keeps step 0 h

theorem addEntries_fst (r : Registry) (entries : List Entry) :
    (r.addEntries entries).1 = (r.compile entries).1 := by
  unfold addEntries
  split
  · next h => rw [h]
  · next h => rw [h]

/-! ## §2. What all definitions have in common. -/

theorem mem_replace {ds : List (String × Definition)} {p : String × Definition}
    (h : p ∈ replace id d ds) : p = (id, d) ∨ p ∈ ds := by
  induction ds with
  | nil => exact .inl (List.mem_singleton.1 h)
  | cons head ds ih =>
    rw [replace] at h
    split at h
    · rcases List.mem_cons.1 h with h | h
      · exact .inl h
      · exact .inr (List.mem_cons_of_mem _ h)
    · rcases List.mem_cons.1 h with h | h
      · exact .inr (h ▸ List.mem_cons_self)
      · exact (ih h).imp_right (List.mem_cons_of_mem _)

theorem mem_of_lookup {ds : List (String × Definition)} (h : lookup id ds = some d) :
    (id, d) ∈ ds := by
  induction ds with
  | nil => exact nomatch h
  | cons head ds ih =>
    rw [lookup] at h
    split at h
    · next hkey =>
      rw [← hkey, ← Option.some.inj h]
      exact List.mem_cons_self
    · exact List.mem_cons_of_mem _ (ih h)

/-- All definitions have the property, under their names. -/
def Holds (P : String → Definition → Prop) (r : Registry) : Prop :=
  ∀ p ∈ r.definitions, P p.1 p.2

end Registry

/-- What the entry defines, if anything, has the property. -/
def Entry.Defines (P : String → Definition → Prop) : Entry → Prop
  | .entity e => ∀ stamp, P e.id (.entity ⟨stamp, e⟩)
  | .macroDef m => ∀ stamp, P m.id (.macroDef ⟨stamp, m⟩)
  | .importing _ | .comment _ | .junk _ => True

namespace Registry

variable {r next : Registry} {entries : List Entry} {id : String} {d : Definition}
  {P : String → Definition → Prop}

theorem Holds.find? (h : r.Holds P) (hd : r.find? id = some d) : P id d :=
  h _ (mem_of_lookup hd)

theorem empty_holds : empty.Holds P := fun _ hp => absurd hp List.not_mem_nil

theorem define_holds (h : r.Holds P) {make : Nat → Definition}
    (hmake : ∀ stamp, P id (make stamp)) : (r.define id make).Holds P := by
  intro p hp
  rcases mem_replace hp with rfl | hp
  · exact hmake r.nextStamp
  · exact h p hp

theorem addEntry_holds (h : r.Holds P) {e : Entry} (he : e.Defines P)
    (hnext : r.addEntry e = .ok next) : next.Holds P := by
  rcases addEntry_cases hnext with ⟨x, rfl, rfl⟩ | ⟨m, rfl, rfl⟩ | ⟨-, rfl⟩
  · exact define_holds h he
  · exact define_holds h he
  · exact h

theorem compile_holds (hentries : ∀ e ∈ entries, e.Defines P) (h : r.Holds P) :
    (r.compile entries).1.Holds P :=
  compile_keeps (fun e he _ _ h hnext => addEntry_holds h (hentries e he) hnext) h

end Registry

end Phrasebook
