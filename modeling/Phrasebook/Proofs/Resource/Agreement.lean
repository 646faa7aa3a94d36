/-
  Phrasebook.Proofs.Resource.Agreement
  ────────────────────────────────
  **STRICT READING AND READING WITH RECOVERY AGREE.**

  Both read the same entries up to the first that fails; strict reading stops
  there, with the first error of the other.  The errors of a reading with
  recovery stand in its junk, one in each piece, and further and further on:

      salvageFrom_agrees    —  the two readings, by induction on the budget
      written_of_salvage    —  what is read is an entry that can be written
      Layout.errors_within  —  errors and junk, segment by segment
      Layout.errors_later   —  every error is behind the one before it
-/
import Mathlib.Data.List.Forall2
import Phrasebook.Proofs.Resource.Salvage
import Phrasebook.Proofs.Text.Position

namespace Phrasebook

namespace Resource

open Phrasebook.Parser

/-! ## §1. The two readings. -/

/-- What strict reading says of a reading with recovery. -/
def Agrees (source : List Char) (s : Salvage) : Outcome (List Entry) → Prop
  | .ok es _ => s = ⟨es, []⟩
  | .fail x r => s.errors.head? = some (.locate source x r)

theorem salvageFrom_agrees (source budget : List Char) :
    ∀ start : List Char, start.length ≤ budget.length →
      Agrees source (salvageFrom source budget start) (collect nextEntry start) := by
  induction budget with
  | nil =>
    intro start hlen
    obtain rfl : start = [] := List.length_eq_zero_iff.1 (by simpa using hlen)
    rw [collect_nil]
    rfl
  | cons x budget ih =>
    intro start hlen
    by_cases hne : start = []
    · subst hne
      rw [collect_nil]
      rfl
    · cases he : entry start with
      | fail y r =>
        rw [collect_of_fail hne he,
            salvageFrom_fail source hne he (rfl : splitJunk start r = (_, _))]
        rfl
      | ok e r =>
        have hless : (dropBlank r).length ≤ budget.length := by
          have hle : (dropBlank r).length ≤ r.length := (List.dropWhile_suffix _).length_le
          have hread := (entry_result he).2
          simp only [List.length_cons] at hlen
          omega
        -- the entry is read by both, and the rest by induction
        have hlater := ih (dropBlank r) hless
        rw [collect_of_ok hne he, salvageFrom_ok source hne he]
        cases hc : collect nextEntry (dropBlank r) with
        | ok es q =>
          rw [hc] at hlater
          have hsalvage : salvageFrom source budget (dropBlank r) = ⟨es, []⟩ := hlater
          rw [hsalvage]
          rfl
        | fail y q =>
          rw [hc] at hlater
          exact hlater

/-- Strict reading succeeds if reading with recovery has no error, and fails
with its first error otherwise. -/
theorem read_cases (source : String) :
    (∃ es, read source = .ok es ∧ salvage source = ⟨es, []⟩)
      ∨ ∃ e, read source = .error e ∧ (salvage source).errors.head? = some e := by
  have hagrees := salvageFrom_agrees source.toList source.toList (dropBlank source.toList)
    (List.dropWhile_suffix _).length_le
  have hentries : entries source.toList = collect nextEntry (dropBlank source.toList) := rfl
  unfold read
  rw [hentries]
  cases hc : collect nextEntry (dropBlank source.toList) with
  | ok es q =>
    rw [hc] at hagrees
    exact .inl ⟨es, rfl, hagrees⟩
  | fail x r =>
    rw [hc] at hagrees
    exact .inr ⟨_, rfl, hagrees⟩

/-! ## §2. What is read is written. -/

theorem salvageFrom_written (source budget start : List Char) :
    ∀ e ∈ (salvageFrom source budget start).entries, e.Written ∨ ∃ content, e = .junk content := by
  induction budget generalizing start with
  | nil =>
    intro e he
    cases start <;> exact absurd he List.not_mem_nil
  | cons x budget ih =>
    by_cases hne : start = []
    · subst hne
      exact fun e he => absurd he List.not_mem_nil
    · intro e he
      cases h : entry start with
      | ok e' r =>
        rw [salvageFrom_ok source hne h] at he
        rcases List.mem_cons.1 he with rfl | he
        · exact .inl (entry_result h).1
        · exact ih (dropBlank r) e he
      | fail y r =>
        rw [salvageFrom_fail source hne h (rfl : splitJunk start r = (_, _))] at he
        rcases List.mem_cons.1 he with rfl | he
        · exact .inr ⟨_, rfl⟩
        · exact ih _ e he

/-- What is read with recovery can be written, but for junk. -/
theorem written_of_salvage (source : String) :
    ∀ e ∈ (salvage source).entries, e.Written ∨ ∃ content, e = .junk content :=
  salvageFrom_written _ _ _

theorem written_of_read {source : String} {entries : List Entry}
    (h : read source = .ok entries) :
    ∀ e ∈ entries, e.Written ∨ ∃ content, e = .junk content := by
  rcases read_cases source with ⟨es, hread, hsalvage⟩ | ⟨e, hread, -⟩
  · have hwritten := written_of_salvage source
    rw [hread] at h
    obtain rfl := Except.ok.inj h
    rw [hsalvage] at hwritten
    exact hwritten
  · rw [hread] at h
    exact nomatch h

/-! ## §3. Errors and junk. -/

/-- Has an entry been skipped? -/
def isJunk : Entry → Bool
  | .junk _ => true
  | .entity _ | .macroDef _ | .importing _ | .comment _ => false

/-- Where junk starts and ends, in bytes, in segments that start at a byte
offset. -/
def junkSpans : Nat → List Segment → List (Nat × Nat)
  | _, [] => []
  | start, s :: others =>
    let later := junkSpans (start + byteLength s.text) others
    if isJunk s.entry then (start, start + byteLength s.piece) :: later else later

/-- The byte offset of the error is in the span or at its end. -/
def Within (source : List Char) (e : SyntaxError) (span : Nat × Nat) : Prop :=
  span.1 ≤ e.position.offset source ∧ e.position.offset source ≤ span.2

theorem byteLength_pos {s : List Char} (h : s ≠ []) : 0 < byteLength s := by
  obtain ⟨c, s, rfl⟩ := List.exists_cons_of_ne_nil h
  have hc := c.utf8Size_pos
  unfold byteLength
  omega

theorem Segment.IsEntry.isJunk_eq {s : Segment} (h : s.IsEntry) : isJunk s.entry = false := by
  cases he : s.entry with
  | junk content => exact absurd he (h.notJunk content)
  | entity _ | macroDef _ | importing _ | comment _ => rfl

namespace Segment.IsJunk

variable {before passed after : List Char} {s : Segment}

theorem isJunk_eq (h : s.IsJunk before passed after) : isJunk s.entry = true := by
  rw [h.entry]
  rfl

/-- The error of junk is behind what has been passed. -/
theorem offset_eq (h : s.IsJunk before passed after) {e : SyntaxError} (he : s.error = some e)
    (text : List Char) :
    e.position.offset (before ++ (s.piece ++ text)) = byteLength before + byteLength passed := by
  obtain ⟨x, herror⟩ := h.error
  rw [herror] at he
  obtain rfl := Option.some.inj he
  obtain ⟨unread, hunread⟩ := h.point
  have hsource : before ++ (s.piece ++ text) = (before ++ passed) ++ (unread ++ text) := by
    simp only [← hunread, List.append_assoc]
  rw [hsource, Position.offset_after, byteLength_append]

theorem passed_le (h : s.IsJunk before passed after) : byteLength passed ≤ byteLength s.piece := by
  obtain ⟨unread, hunread⟩ := h.point
  rw [← hunread, byteLength_append]
  omega

/-- No blanks follow junk, for it ends in front of a `<`. -/
theorem gap_eq (h : s.IsJunk before passed (s.gap ++ after)) (hgap : AllBlank s.gap) :
    s.gap = [] := by
  cases hg : s.gap with
  | nil => rfl
  | cons c gap =>
    have hstops := h.stops
    rw [hg, List.cons_append] at hstops
    rcases hstops with hnil | hhead
    · exact absurd hnil (List.cons_ne_nil _ _)
    · obtain rfl : c = '<' := Option.some.inj hhead
      have hblank := hgap '<' (by rw [hg]; exact List.mem_cons_self)
      exact absurd hblank (by decide)

end Segment.IsJunk

namespace Layout

variable {before text : List Char} {segments : List Segment}

/-- The errors of segments are in their junk, one in each piece. -/
theorem errors_within (h : Layout before text segments) :
    List.Forall₂ (Within (before ++ text)) (segments.filterMap Segment.error)
      (junkSpans (byteLength before) segments) := by
  induction h with
  | done => exact .nil
  | @next before after s others fits gap later ih =>
    have hsource : (before ++ s.text) ++ after = before ++ (s.text ++ after) :=
      List.append_assoc _ _ _
    rw [hsource, byteLength_append] at ih
    unfold junkSpans
    rcases fits with hentry | ⟨passed, hjunk⟩
    · rw [List.filterMap_cons_none hentry.error, hentry.isJunk_eq]
      exact ih
    · obtain ⟨x, herror⟩ := hjunk.error
      rw [List.filterMap_cons_some herror, hjunk.isJunk_eq]
      refine .cons ?_ ih
      have hoffset := hjunk.offset_eq herror (s.gap ++ after)
      have hle := hjunk.passed_le
      unfold Within
      rw [Segment.text, List.append_assoc, hoffset]
      omega

/-- An error is not in front of the segments, and behind their first
character if that is a `<`. -/
theorem le_offset (h : Layout before text segments) :
    ∀ e ∈ segments.filterMap Segment.error,
      byteLength before ≤ e.position.offset (before ++ text)
        ∧ (text.head? = some '<' → byteLength before < e.position.offset (before ++ text)) := by
  induction h with
  | done => exact fun e he => absurd he List.not_mem_nil
  | @next before after s others fits gap later ih =>
    intro e he
    -- what is behind the piece is behind its first character
    have hpiece := byteLength_pos fits.nonempty
    have hlater : e ∈ others.filterMap Segment.error →
        byteLength before < e.position.offset (before ++ (s.text ++ after)) := by
      intro he
      have hle := (ih e he).1
      rw [List.append_assoc, byteLength_append, Segment.text, byteLength_append] at hle
      unfold Segment.text
      omega
    rcases fits with hentry | ⟨passed, hjunk⟩
    · rw [List.filterMap_cons_none hentry.error] at he
      have hlt := hlater he
      exact ⟨Nat.le_of_lt hlt, fun _ => hlt⟩
    · obtain ⟨x, herror⟩ := hjunk.error
      rw [List.filterMap_cons_some herror] at he
      rcases List.mem_cons.1 he with rfl | he
      · have hoffset := hjunk.offset_eq herror (s.gap ++ after)
        rw [Segment.text, List.append_assoc, hoffset]
        refine ⟨Nat.le_add_right _ _, fun hhead => ?_⟩
        have hstart : s.piece.head? = some '<' := by
          obtain ⟨c, piece, hcons⟩ := List.exists_cons_of_ne_nil hjunk.nonempty
          rw [hcons] at hhead ⊢
          exact hhead
        have hpassed := byteLength_pos (hjunk.progress hstart)
        omega
      · have hlt := hlater he
        exact ⟨Nat.le_of_lt hlt, fun _ => hlt⟩

theorem eq_nil (h : Layout before [] segments) : segments = [] := by
  cases segments with
  | nil => rfl
  | cons s others =>
    have htext := h.text_eq
    rw [List.flatMap_cons] at htext
    have hnil : s.text = [] := (List.append_eq_nil_iff.1 htext.symm).1
    have hpiece : s.piece = [] := (List.append_eq_nil_iff.1 hnil).1
    exact absurd hpiece (h.fits [] s others rfl).nonempty

/-- Every error is behind the one before it. -/
theorem errors_later (h : Layout before text segments) :
    ((segments.filterMap Segment.error).map fun e =>
      e.position.offset (before ++ text)).Pairwise (· < ·) := by
  induction h with
  | done => exact .nil
  | @next before after s others fits gap later ih =>
    have hsource : (before ++ s.text) ++ after = before ++ (s.text ++ after) :=
      List.append_assoc _ _ _
    rw [hsource] at ih
    rcases fits with hentry | ⟨passed, hjunk⟩
    · rw [List.filterMap_cons_none hentry.error]
      exact ih
    · obtain ⟨x, herror⟩ := hjunk.error
      rw [List.filterMap_cons_some herror, List.map_cons]
      refine .cons ?_ ih
      intro o ho
      obtain ⟨e, he, rfl⟩ := List.mem_map.1 ho
      -- the piece ends in front of a `<`, and errors are behind it from there on
      have hgap := hjunk.gap_eq gap
      have hstops := hjunk.stops
      have hbehind := (later.le_offset e he).2
      rw [hgap, List.nil_append] at hstops
      rw [hsource, byteLength_append, Segment.text, byteLength_append, hgap] at hbehind
      have hoffset := hjunk.offset_eq herror (s.gap ++ after)
      have hle := hjunk.passed_le
      rw [hgap] at hoffset
      unfold Segment.text
      rw [hgap, List.append_assoc, hoffset]
      rcases hstops with hnil | hhead
      · rw [hnil] at later
        rw [later.eq_nil] at he
        exact absurd he List.not_mem_nil
      · have hlt := hbehind hhead
        rw [List.append_assoc] at hlt
        simp only [byteLength] at hlt
        omega

end Layout

theorem length_junkSpans (start : Nat) (segments : List Segment) :
    (junkSpans start segments).length = (segments.map Segment.entry).countP isJunk := by
  induction segments generalizing start with
  | nil => rfl
  | cons s others ih =>
    unfold junkSpans
    rw [List.map_cons, List.countP_cons]
    split
    · rw [List.length_cons, ih]
    · rw [ih]
      rfl

/-- Errors are in the order of the source. -/
theorem salvage_errors_later (source : String) :
    ((salvage source).errors.map fun e => e.position.offset source.toList).Pairwise (· < ·) := by
  obtain ⟨lead, segments, -, hsource, hlayout, hsplits⟩ := salvage_layout source
  have hlater := hlayout.errors_later
  rwa [← hsource, ← hsplits.errors] at hlater

/-- There is one error for each piece of junk. -/
theorem salvage_errors_length (source : String) :
    (salvage source).errors.length = (salvage source).entries.countP isJunk := by
  obtain ⟨lead, segments, -, hsource, hlayout, hsplits⟩ := salvage_layout source
  rw [hsplits.errors, hlayout.errors_within.length_eq, length_junkSpans, hsplits.entries]

/-- Strict reading and reading with recovery agree, and the errors of the
latter stand in its junk, in order. -/
theorem read_salvage_agree (source : String) :
    ((∃ es, read source = .ok es) ↔ (salvage source).errors = [])
      ∧ (∀ es, read source = .ok es → salvage source = ⟨es, []⟩)
      ∧ (∀ e, read source = .error e → (salvage source).errors.head? = some e)
      ∧ (salvage source).errors.length = (salvage source).entries.countP isJunk
      ∧ (∃ lead segments, Splits source lead segments
        ∧ List.Forall₂ (Within source.toList) (salvage source).errors
            (junkSpans (byteLength lead) segments))
      ∧ ((salvage source).errors.map fun e =>
          e.position.offset source.toList).Pairwise (· < ·) := by
  obtain ⟨lead, segments, -, hsource, hlayout, hsplits⟩ := salvage_layout source
  have hwithin := hlayout.errors_within
  have hlater := hlayout.errors_later
  rw [← hsource, ← hsplits.errors] at hwithin hlater
  have hlength : (salvage source).errors.length = (salvage source).entries.countP isJunk := by
    rw [hwithin.length_eq, length_junkSpans, hsplits.entries]
  refine ⟨?_, ?_, ?_, hlength, ⟨lead, segments, hsplits, hwithin⟩, hlater⟩
  all_goals rcases read_cases source with ⟨es, hread, hsalvage⟩ | ⟨e, hread, hfirst⟩
  · rw [hsalvage]
    exact ⟨fun _ => rfl, fun _ => ⟨es, hread⟩⟩
  · constructor
    · rintro ⟨es, hes⟩
      rw [hread] at hes
      exact nomatch hes
    · intro hnone
      rw [hnone] at hfirst
      exact nomatch hfirst
  · intro es' hes'
    rw [hread] at hes'
    obtain rfl := Except.ok.inj hes'
    exact hsalvage
  · intro es' hes'
    rw [hread] at hes'
    exact nomatch hes'
  · intro e' he'
    rw [hread] at he'
    exact nomatch he'
  · intro e' he'
    rw [hread] at he'
    obtain rfl := Except.error.inj he'
    exact hfirst

end Resource

end Phrasebook
