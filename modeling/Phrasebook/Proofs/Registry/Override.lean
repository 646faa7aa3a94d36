/-
  Phrasebook.Proofs.Registry.Override
  ────────────────────────────────
  **THE LAST DEFINITION OF A NAME COUNTS.**

  Entries are defined one after the other, so what comes of two lists is what
  comes of the second one after the first:

      compile_cons_ok    —  one entry, and then the others
      compile_append     —  one list, and then another one
      compile_filter     —  entries that define nothing might as well be absent
      compile_overrides  —  every name has the last definition that it was
                            given, or else the one that it had
      compile_stops      —  the first entry that is refused ends it, and
                            nothing before it is undone
      last_definition_wins
                         —  all of it, for any registry and any trees
-/
import Phrasebook.Proofs.Registry.Filled

namespace Phrasebook

/-! ## §1. What one entry defines. -/

namespace Entry

/-- The name that an entry bears, if it defines one. -/
def name? : Entry → Option String
  | .entity e => some e.id
  | .macroDef m => some m.id
  | .importing _ | .comment _ | .junk _ => none

/-- What an entry defines its name as; the stamp tells the definition from
any other. -/
def definition? (stamp : Nat) : Entry → Option Definition
  | .entity e => some (.entity ⟨stamp, e⟩)
  | .macroDef m => some (.macroDef ⟨stamp, m⟩)
  | .importing _ | .comment _ | .junk _ => none

/-- The entry fails its check with the error. -/
def Refused (x : DefinitionError) : Entry → Prop
  | .entity e => e.check = .error x
  | .macroDef m => m.check = .error x
  | .importing _ | .comment _ | .junk _ => False

/-- The last of the entries that bears the name, with `k` definitions in
front of it. -/
def LastBearing (entries : List Entry) (id : String) (e : Entry) (k : Nat) : Prop :=
  ∃ before after, entries = before ++ e :: after ∧ e.name? = some id
    ∧ countDefinitions before = k ∧ ∀ x ∈ after, x.name? ≠ some id

theorem countDefinitions_cons (e : Entry) (entries : List Entry) :
    countDefinitions (e :: entries) = countDefinitions [e] + countDefinitions entries :=
  @List.countP_append _ _ [e] entries

theorem countDefinitions_other {e : Entry} (h : e.isDefinition = false) :
    countDefinitions [e] = 0 := by
  simp [countDefinitions, h]

/-- The last one among some entries is the last one with another in front as
well, and that is the last one only if none of them bears its name. -/
theorem lastBearing_cons_iff {e y : Entry} {entries : List Entry} {id : String} {k : Nat} :
    LastBearing (e :: entries) id y k
      ↔ (∃ j, LastBearing entries id y j ∧ k = countDefinitions [e] + j)
        ∨ y = e ∧ e.name? = some id ∧ k = 0 ∧ ∀ x ∈ entries, x.name? ≠ some id := by
  constructor
  · rintro ⟨before, after, heq, hname, rfl, hafter⟩
    cases before with
    | nil =>
      obtain ⟨rfl, rfl⟩ := List.cons.inj heq
      exact .inr ⟨rfl, hname, rfl, hafter⟩
    | cons b before =>
      obtain ⟨rfl, rfl⟩ := List.cons.inj heq
      exact .inl ⟨_, ⟨before, after, rfl, hname, rfl, hafter⟩, countDefinitions_cons e before⟩
  · rintro (⟨j, ⟨before, after, rfl, hname, rfl, hafter⟩, rfl⟩ | ⟨rfl, hname, rfl, hafter⟩)
    · exact ⟨e :: before, after, rfl, hname, countDefinitions_cons e before, hafter⟩
    · exact ⟨[], entries, rfl, hname, rfl, hafter⟩

theorem definition?_of_name? {e : Entry} {id : String} (h : e.name? = some id) (stamp : Nat) :
    ∃ d, e.definition? stamp = some d := by
  cases e with
  | entity y => exact ⟨_, rfl⟩
  | macroDef m => exact ⟨_, rfl⟩
  | importing _ | comment _ | junk _ => exact nomatch h

end Entry

namespace Registry

open Entry

variable {r next : Registry} {e : Entry} {xs entries : List Entry} {x : DefinitionError}

/-- An entry gives its own name its own definition. -/
theorem addEntry_find? (h : r.addEntry e = .ok next) (id : String) :
    next.find? id = if e.name? = some id then e.definition? r.nextStamp else r.find? id := by
  rcases addEntry_cases h with ⟨y, rfl, rfl⟩ | ⟨m, rfl, rfl⟩ | ⟨hother, rfl⟩
  · simp only [find?_define, name?, definition?, Option.some.injEq, eq_comm]
  · simp only [find?_define, name?, definition?, Option.some.injEq, eq_comm]
  · cases e with
    | entity _ | macroDef _ => exact nomatch hother
    | importing _ | comment _ | junk _ => rfl

/-- Only definitions take a stamp. -/
theorem addEntry_nextStamp (h : r.addEntry e = .ok next) :
    next.nextStamp = r.nextStamp + countDefinitions [e] := by
  rcases addEntry_cases h with ⟨y, rfl, rfl⟩ | ⟨m, rfl, rfl⟩ | ⟨hother, rfl⟩
  · rfl
  · rfl
  · rw [countDefinitions_other hother, Nat.add_zero]

/-- An entry is refused by its own check, whatever has been defined. -/
theorem addEntry_eq_error_iff : r.addEntry e = .error x ↔ e.Refused x := by
  cases e with
  | entity y =>
    show Except.map _ y.check = .error x ↔ y.check = .error x
    cases y.check <;> simp [Except.map]
  | macroDef m =>
    show Except.map _ m.check = .error x ↔ m.check = .error x
    cases m.check <;> simp [Except.map]
  | importing _ | comment _ | junk _ => exact iff_of_false nofun id

/-! ## §2. One entry after the other. -/

/-- What comes of defining entries, with `k` more names counted. -/
def countOn (k : Nat) (outcome : Registry × Except DefinitionError Nat) :
    Registry × Except DefinitionError Nat :=
  (outcome.1, outcome.2.map (k + ·))

theorem countOn_zero (outcome : Registry × Except DefinitionError Nat) :
    countOn 0 outcome = outcome := by
  obtain ⟨r, x | n⟩ := outcome
  · rfl
  · simp [countOn, Except.map]

theorem countOn_countOn (k j : Nat) (outcome : Registry × Except DefinitionError Nat) :
    countOn k (countOn j outcome) = countOn (k + j) outcome := by
  obtain ⟨r, x | n⟩ := outcome
  · rfl
  · simp [countOn, Except.map, Nat.add_assoc]

theorem countOn_eq_ok_iff {k n : Nat} {outcome : Registry × Except DefinitionError Nat} :
    countOn k outcome = (next, .ok n) ↔ ∃ m, outcome = (next, .ok m) ∧ n = k + m := by
  obtain ⟨r, x | m⟩ := outcome
  · simp [countOn, Except.map]
  · simp [countOn, Except.map, and_assoc, eq_comm]

theorem countOn_eq_error_iff {k : Nat} {outcome : Registry × Except DefinitionError Nat} :
    countOn k outcome = (next, .error x) ↔ outcome = (next, .error x) := by
  obtain ⟨r, y | m⟩ := outcome <;> simp [countOn, Except.map]

theorem compileFrom_eq (count : Nat) (r : Registry) (entries : List Entry) :
    r.compileFrom count entries = countOn count (r.compile entries) := by
  suffices hcount : ∀ start, r.compileFrom (count + start) entries
      = countOn count (r.compileFrom start entries) from hcount 0
  -- by induction on the entries: both counts go up by the same
  induction entries generalizing r with
  | nil => exact fun start => rfl
  | cons e entries ih =>
    intro start
    rw [compileFrom, compileFrom]
    cases hadd : r.addEntry e with
    | error x => rfl
    | ok next =>
      by_cases hdef : e.isDefinition
      · simp only [hdef, if_true]
        exact ih next (start + 1)
      · simp only [hdef, Bool.false_eq_true, if_false]
        exact ih next start

theorem compile_cons_ok (h : r.addEntry e = .ok next) (entries : List Entry) :
    r.compile (e :: entries) = countOn (countDefinitions [e]) (next.compile entries) := by
  have hcount : (if e.isDefinition then 0 + 1 else 0) = countDefinitions [e] := by
    simp [countDefinitions]
  rw [compile, compileFrom, h]
  dsimp only
  rw [hcount, compileFrom_eq]

theorem compile_cons_error (h : r.addEntry e = .error x) (entries : List Entry) :
    r.compile (e :: entries) = (r, .error x) := by
  rw [compile, compileFrom, h]

/-- Entries can be defined if the first one can, and then the others. -/
theorem compile_cons_eq_ok {n : Nat} (h : r.compile (e :: entries) = (next, .ok n)) :
    ∃ r₁ m, r.addEntry e = .ok r₁ ∧ r₁.compile entries = (next, .ok m)
      ∧ n = countDefinitions [e] + m := by
  cases hadd : r.addEntry e with
  | error x =>
    rw [compile_cons_error hadd] at h
    exact nomatch (Prod.mk.inj h).2
  | ok r₁ =>
    rw [compile_cons_ok hadd] at h
    obtain ⟨m, hlater, hn⟩ := countOn_eq_ok_iff.1 h
    exact ⟨r₁, m, rfl, hlater, hn⟩

/-- Two lists in a row are the second one after the first, if nothing in the
first one is refused. -/
theorem compile_append {n : Nat} (ys : List Entry) (h : r.compile xs = (next, .ok n)) :
    r.compile (xs ++ ys) = countOn n (next.compile ys) := by
  induction xs generalizing r n with
  | nil =>
    obtain ⟨rfl, hn⟩ := Prod.mk.inj h
    obtain rfl := Except.ok.inj hn
    exact (countOn_zero _).symm
  | cons e xs ih =>
    obtain ⟨r₁, m, hadd, hxs, rfl⟩ := compile_cons_eq_ok h
    rw [List.cons_append, compile_cons_ok hadd, ih hxs, countOn_countOn]

/-- Imports, comments and junk change nothing. -/
theorem compile_filter (r : Registry) (entries : List Entry) :
    r.compile (entries.filter Entry.isDefinition) = r.compile entries := by
  induction entries generalizing r with
  | nil => rfl
  | cons e entries ih =>
    by_cases hdef : e.isDefinition
    · rw [List.filter_cons_of_pos hdef]
      cases hadd : r.addEntry e with
      | error x => rw [compile_cons_error hadd, compile_cons_error hadd]
      | ok next => rw [compile_cons_ok hadd, compile_cons_ok hadd, ih]
    · have hadd : r.addEntry e = .ok r := by
        cases e with
        | entity _ | macroDef _ => exact absurd rfl hdef
        | importing _ | comment _ | junk _ => rfl
      have hother := countDefinitions_other (Bool.eq_false_iff.2 hdef)
      rw [List.filter_cons_of_neg hdef, ih, compile_cons_ok hadd, hother, countOn_zero]

/-! ## §3. What is found afterwards. -/

/-- What has become of every name once the entries have been defined. -/
structure Overrides (r next : Registry) (entries : List Entry) : Prop where
  /-- A name has the last definition that it was given, be it of an entity or
  of a macro. -/
  defined : ∀ id e k, LastBearing entries id e k →
    ∃ d, e.definition? (r.nextStamp + k) = some d ∧ next.find? id = some d
  /-- Every other name has the definition that it had. -/
  kept : ∀ id, (∀ e ∈ entries, e.name? ≠ some id) → next.find? id = r.find? id

theorem compile_overrides {n : Nat} (h : r.compile entries = (next, .ok n)) :
    r.Overrides next entries := by
  -- by induction on the entries: a later definition hides what the first entry does
  induction entries generalizing r n with
  | nil =>
    obtain ⟨rfl, -⟩ := Prod.mk.inj h
    refine ⟨fun id e k hlast => ?_, fun id _ => rfl⟩
    obtain ⟨before, after, heq, -⟩ := hlast
    exact absurd heq (by simp)
  | cons e entries ih =>
    obtain ⟨r₁, m, hadd, hlater, -⟩ := compile_cons_eq_ok h
    obtain ⟨hdefined, hkept⟩ := ih hlater
    refine ⟨fun id y k hlast => ?_, fun id hother => ?_⟩
    · rcases lastBearing_cons_iff.1 hlast with ⟨j, hj, rfl⟩ | ⟨rfl, hname, rfl, hothers⟩
      · rw [← Nat.add_assoc, ← addEntry_nextStamp hadd]
        exact hdefined id y j hj
      · obtain ⟨d, hd⟩ := definition?_of_name? hname r.nextStamp
        refine ⟨d, hd, ?_⟩
        rw [hkept id hothers, addEntry_find? hadd, if_pos hname, hd]
    · rw [hkept id fun y hy => hother y (List.mem_cons_of_mem _ hy), addEntry_find? hadd,
        if_neg (hother e List.mem_cons_self)]

/-! ## §4. Where it ends. -/

/-- The first entry that is refused ends it: what comes before has been
defined, and nothing else. -/
theorem compile_stops (h : r.compile entries = (next, .error x)) :
    ∃ before e after, entries = before ++ e :: after ∧ e.Refused x
      ∧ r.compile before = (next, .ok (countDefinitions before)) := by
  induction entries generalizing r with
  | nil => exact nomatch (Prod.mk.inj h).2
  | cons e entries ih =>
    cases hadd : r.addEntry e with
    | error y =>
      rw [compile_cons_error hadd] at h
      obtain ⟨rfl, hx⟩ := Prod.mk.inj h
      obtain rfl := Except.error.inj hx
      exact ⟨[], e, entries, rfl, addEntry_eq_error_iff.1 hadd, rfl⟩
    | ok r₁ =>
      rw [compile_cons_ok hadd, countOn_eq_error_iff] at h
      obtain ⟨before, y, after, rfl, hrefused, hbefore⟩ := ih h
      refine ⟨e :: before, y, after, rfl, hrefused, ?_⟩
      rw [compile_cons_ok hadd, hbefore, countDefinitions_cons e before]
      rfl

/-- Each definition is counted. -/
theorem compile_count {n : Nat} (h : r.compile entries = (next, .ok n)) :
    n = countDefinitions entries := by
  induction entries generalizing r n with
  | nil => exact (Except.ok.inj (Prod.mk.inj h).2).symm
  | cons e entries ih =>
    obtain ⟨r₁, m, -, hlater, rfl⟩ := compile_cons_eq_ok h
    rw [ih hlater, countDefinitions_cons e entries]

theorem not_refused_of_compile {n : Nat} (h : r.compile entries = (next, .ok n)) :
    ∀ e ∈ entries, ∀ x, ¬ e.Refused x := by
  induction entries generalizing r n with
  | nil => exact fun e he => absurd he List.not_mem_nil
  | cons e entries ih =>
    obtain ⟨r₁, m, hadd, hlater, -⟩ := compile_cons_eq_ok h
    refine List.forall_mem_cons.2 ⟨fun x hx => ?_, ih hlater⟩
    rw [addEntry_eq_error_iff.2 hx] at hadd
    exact nomatch hadd

/-- Entries are all defined unless one of them is refused. -/
theorem compile_ok_iff :
    (∃ next n, r.compile entries = (next, .ok n)) ↔ ∀ e ∈ entries, ∀ x, ¬ e.Refused x := by
  refine ⟨fun ⟨next, n, h⟩ => not_refused_of_compile h, fun hnone => ?_⟩
  rcases houtcome : r.compile entries with ⟨next, x | n⟩
  · obtain ⟨before, e, after, rfl, hrefused, -⟩ := compile_stops houtcome
    exact absurd hrefused (hnone e (by simp) x)
  · exact ⟨next, n, rfl⟩

/-- **Defining entries, for any registry and any trees.**  All entries are
defined unless one of them is refused.  Then more entries are defined as if
they were the first ones, and every name has its last definition or else the
one that it had.  Entries that define nothing might as well be absent.  The
first entry that is refused leaves the registry as those before it have made
it. -/
theorem last_definition_wins (r : Registry) (xs : List Entry) :
    ((∃ next n, r.compile xs = (next, .ok n)) ↔ ∀ e ∈ xs, ∀ x, ¬ e.Refused x)
      ∧ (∀ next n, r.compile xs = (next, .ok n) →
        n = countDefinitions xs
          ∧ (∀ ys, r.compile (xs ++ ys)
            = ((next.compile ys).1, (next.compile ys).2.map (n + ·)))
          ∧ r.Overrides next xs)
      ∧ r.compile (xs.filter Entry.isDefinition) = r.compile xs
      ∧ ∀ next x, r.compile xs = (next, .error x) →
        ∃ before e after, xs = before ++ e :: after ∧ e.Refused x
          ∧ r.compile before = (next, .ok (countDefinitions before)) := by
  refine ⟨compile_ok_iff, fun next n h => ?_, compile_filter r xs, fun next x => compile_stops⟩
  exact ⟨compile_count h, fun ys => compile_append ys h, compile_overrides h⟩

/-- A macro takes the name of an entity, and a local macro undoes neither. -/
example :
    let e : Entity := ⟨"a", false, some (.text "1"), [], []⟩
    let m : Macro := ⟨"a", [], .number 2, []⟩
    let b : Macro := ⟨"_b", [], .number 3, []⟩
    let outcome := empty.compile [.entity e, .comment "", .macroDef m, .macroDef b]
    outcome.2 = .error (.localMacro "_b")
      ∧ outcome.1.find? "a" = some (.macroDef ⟨1, m⟩)
      ∧ outcome.1.find? "_b" = none :=
  ⟨rfl, rfl, rfl⟩

end Registry

end Phrasebook
