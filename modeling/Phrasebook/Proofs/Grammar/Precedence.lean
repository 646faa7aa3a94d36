/-
  Phrasebook.Proofs.Grammar.Precedence
  ────────────────────────────────
  **READING IS THE PRECEDENCE GRAMMAR.**

  Whatever is read, strictly or with recovery, is a tree that keeps to the
  levels; and a tree that keeps to them is read back from each of its
  spellings, wherever an expression may stand:

      Entry.Written.exprs   —  the trees of an entry that has been read
      Spells.outermost      —  the spellings that have few enough levels
      expression_grammar    —  both directions
-/
import Phrasebook.Proofs.Grammar.Nesting
import Phrasebook.Proofs.Resource.Agreement

namespace Phrasebook

open Phrasebook.Parser

/-! ## §1. The trees of an entry. -/

/-- The expressions of an entry: its value or body, its index, and the values
of its attributes. -/
def Entry.exprs : Entry → List Expr
  | .entity e => e.value.toList ++ e.index ++ e.attributes.map Field.value
  | .macroDef m => m.body :: m.attributes.map Field.value
  | .importing _ | .comment _ | .junk _ => []

theorem WrittenAttributes.values {attributes : List (Field Expr)} (h : WrittenAttributes attributes) :
    ∀ x ∈ attributes.map Field.value, x.Written := by
  intro x hx
  obtain ⟨f, hf, rfl⟩ := List.mem_map.1 hx
  exact (h.value hf).1

/-- An entry that can be written has trees that can be written. -/
theorem Entry.Written.exprs {entry : Entry} (h : entry.Written) : ∀ x ∈ entry.exprs, x.Written := by
  intro x hx
  cases entry with
  | entity e =>
    have he : e.Written := h
    rcases List.mem_append.1 hx with hx | hx
    · rcases List.mem_append.1 hx with hx | hx
      · exact (he.value x (Option.mem_toList.1 hx)).1
      · exact he.index x hx
    · exact he.attributes.values x hx
  | macroDef m =>
    have hm : m.Written := h
    rcases List.mem_cons.1 hx with rfl | hx
    · exact hm.body
    · exact hm.attributes.values x hx
  | importing uri => exact absurd hx List.not_mem_nil
  | comment content => exact absurd hx List.not_mem_nil
  | junk content => exact absurd hx List.not_mem_nil

theorem exprs_of_written {es : List Entry}
    (h : ∀ entry ∈ es, entry.Written ∨ ∃ content, entry = .junk content) :
    ∀ entry ∈ es, ∀ x ∈ entry.exprs, x.Written := by
  intro entry hentry x hx
  rcases h entry hentry with hwritten | ⟨content, rfl⟩
  · exact hwritten.exprs x hx
  · -- junk has no trees
    exact absurd hx List.not_mem_nil

/-! ## §2. The spellings of a tree. -/

section

variable {n : Nat} {e : Expr} {s : List Char}

/-- A spelling is read wherever an expression may stand, up to what does not
go on with it. -/
theorem Spells.outermost (h : Spells n e s) (hn : n < maxNesting) (he : e.Written) {t : List Char}
    (ht : Stops 0 t) : Phrasebook.outermost.expression (s ++ t) = .ok e (dropBlank t) := by
  have hdeepest : Spells 31 e s := h.le (Nat.le_of_lt_succ hn)
  exact (hdeepest.reads he).expression t ht

end

/-! ## §3. Both directions. -/

namespace Resource

/-- Every tree that is read keeps to the levels of the operators.  Every tree
without literals that keeps to them has spellings, and is read from each of
them: in front of whatever does not go on with an expression, so also as the
body of a macro. -/
theorem expression_grammar :
    (∀ source : String,
        (∀ es, read source = .ok es → ∀ entry ∈ es, ∀ e ∈ entry.exprs, e.Written)
          ∧ ∀ entry ∈ (salvage source).entries, ∀ e ∈ entry.exprs, e.Written)
      ∧ ∀ (n : Nat) (e : Expr), n < maxNesting → e.Plain n → e.Written →
        (∃ s, Spells n e s)
          ∧ ∀ s, Spells n e s →
            (∀ t, Stops 0 t → outermost.expression (s ++ t) = .ok e (dropBlank t))
              ∧ ∀ (id : String) (w w' : List Char), IsName id → isLocalName id = false →
                AllBlank w → AllBlank w' →
                  read (String.ofList (macroText id (w ++ (s ++ w'))))
                    = .ok [.macroDef ⟨id, [], e, []⟩] := by
  refine ⟨fun source => ⟨fun es hes => ?_, ?_⟩, fun n e hn hplain he => ⟨hplain.spells, ?_⟩⟩
  · exact exprs_of_written (written_of_read hes)
  · exact exprs_of_written (written_of_salvage source)
  · intro s hs
    refine ⟨fun t ht => hs.outermost hn he ht, fun id w w' hid hpublic hw hw' => ?_⟩
    exact (read_macroText hid hpublic).2 ((hs.isBody he hw hw').deeper hn)

end Resource

end Phrasebook
