/-
  Phrasebook.Proofs.Resource.Concat
  ────────────────────────────────
  **ONE RESOURCE BEHIND ANOTHER.**

  No entry depends on what is in front of it.  Behind a text that is read as
  `es`, any text is read as by itself, with recovery and without: its entries
  follow `es`, and its errors are those it has, further down or further right:

      readsAs_of_entries    —  the pieces of a text that is read
      ReadsAs.entries_append, ReadsAs.salvageFrom_append
                            —  what is read behind them, piece by piece
      salvageFrom_behind    —  where the errors are then
-/
import Mathlib
import Phrasebook.Proofs.Resource.Salvage
import Phrasebook.Proofs.Text.Position

namespace Phrasebook

open Phrasebook.Parser

/-- The same error if there is another text in front. -/
def SyntaxError.behind (front : List Char) (e : SyntaxError) : SyntaxError :=
  { e with position := e.position.behind front }

theorem SyntaxError.locate_behind (front : List Char) {source rest : List Char} (x : Expected)
    (h : rest <:+ source) :
    SyntaxError.locate (front ++ source) x rest
      = (SyntaxError.locate source x rest).behind front := by
  obtain ⟨passed, rfl⟩ := h
  rw [← List.append_assoc, Resource.locate_append, Resource.locate_append, Position.after_behind]
  rfl

/-! ## §1. Blanks in front of another text. -/

theorem dropBlank_append_of_nil {s : List Char} (h : dropBlank s = []) (t : List Char) :
    dropBlank (s ++ t) = dropBlank t := by
  unfold dropBlank at h ⊢
  rw [List.dropWhile_append, h]
  rfl

theorem dropBlank_append_of_ne {s : List Char} (h : dropBlank s ≠ []) (t : List Char) :
    dropBlank (s ++ t) = dropBlank s ++ t := by
  unfold dropBlank at h ⊢
  rw [List.dropWhile_append, if_neg (by simpa using h)]

namespace Resource

/-! ## §2. The pieces of a text that is read. -/

/-- The text is these entries one after the other, with blanks around them. -/
inductive ReadsAs : List Char → List Entry → Prop
  | done {s : List Char} (blank : dropBlank s = []) : ReadsAs s []
  | next {s piece rest : List Char} {e : Entry} {es : List Entry}
      (start : dropBlank s = piece ++ rest) (reads : entry (piece ++ rest) = .ok e rest)
      (later : ReadsAs rest es) : ReadsAs s (e :: es)

theorem nextEntry_reads : Reads 0 nextEntry fun _ => True := by
  refine .bind (.ahead fun _ _ _ => rfl) fun _ _ => .ite (fun _ => .pure trivial) fun _ => ?_
  exact .bind entry_closes.toReads fun _ _ => .bind .blank fun _ _ => .pure trivial

theorem entries_suffix (s : List Char) : (entries s).rest <:+ s := by
  have hreads : Reads 0 entries fun es => ∀ e ∈ es, True :=
    .bind .blank fun _ _ => .collect (nextEntry_reads.mono (fun _ _ _ _ => trivial) (Nat.le_refl 0))
      nextEntry_advances
  exact hreads.suffix s

theorem entries_eq (s : List Char) : entries s = collect nextEntry (dropBlank s) := rfl

theorem readsAs_of_entries {s r : List Char} {es : List Entry} (h : entries s = .ok es r) :
    ReadsAs s es := by
  -- every entry leaves less of the text
  induction hn : s.length using Nat.strong_induction_on generalizing s r es with
  | _ n ih =>
    rw [entries_eq] at h
    by_cases hne : dropBlank s = []
    · rw [hne, collect_nil] at h
      obtain ⟨rfl, -⟩ := Outcome.ok.inj h
      exact .done hne
    · cases he : entry (dropBlank s) with
      | fail x q =>
        rw [collect_of_fail hne he] at h
        exact nomatch h
      | ok e q =>
        rw [collect_of_ok hne he] at h
        have hless := (entry_result he).2
        have hle : (dropBlank s).length ≤ s.length := (List.dropWhile_suffix _).length_le
        obtain ⟨piece, hpiece⟩ := entry_closes.suffix_ok he
        rw [← hpiece] at he
        cases hlater : entries q with
        | fail x p =>
          rw [← entries_eq, hlater] at h
          exact nomatch h
        | ok later p =>
          rw [← entries_eq, hlater] at h
          obtain ⟨rfl, -⟩ := Outcome.ok.inj h
          exact .next hpiece.symm he (ih q.length (by omega) hlater rfl)

/-- What is read of a piece is read of it in front of any text. -/
theorem start_append {s piece rest : List Char} {e : Entry}
    (start : dropBlank s = piece ++ rest) (reads : entry (piece ++ rest) = .ok e rest)
    (t : List Char) :
    dropBlank (s ++ t) ≠ [] ∧ entry (dropBlank (s ++ t)) = .ok e (rest ++ t) := by
  obtain ⟨hsealed, hclosed⟩ := entry_closed reads
  have hpiece : piece ++ rest ≠ [] := fun hnil =>
    hsealed.ne_nil (List.append_eq_nil_iff.1 hnil).1
  have hstart : dropBlank (s ++ t) = piece ++ (rest ++ t) := by
    rw [dropBlank_append_of_ne (by rw [start]; exact hpiece), start, List.append_assoc]
  rw [hstart]
  refine ⟨fun hnil => hsealed.ne_nil (List.append_eq_nil_iff.1 hnil).1, hclosed _⟩

/-- Strict reading goes on behind a text that is read. -/
theorem ReadsAs.entries_append {s : List Char} {es : List Entry} (h : ReadsAs s es)
    (t : List Char) :
    entries (s ++ t) = (entries t).bind fun later r => .ok (es ++ later) r := by
  -- by induction on the pieces: each is read in front of any text as by itself
  induction h with
  | done h =>
    rw [entries_eq, dropBlank_append_of_nil h, ← entries_eq]
    cases entries t <;> rfl
  | next start reads later ih =>
    obtain ⟨hne, he⟩ := start_append start reads t
    rw [entries_eq, collect_of_ok hne he, ← entries_eq, ih]
    cases entries t <;> rfl

/-! ## §3. Reading with recovery. -/

/-- A budget that is enough is as good as any other. -/
theorem salvageFrom_budget (source budget : List Char) : ∀ budget' start : List Char,
    start.length ≤ budget.length → start.length ≤ budget'.length → dropBlank start = start →
    start <:+ source →
    salvageFrom source budget start = salvageFrom source budget' start := by
  induction budget with
  | nil =>
    intro budget' start hlen _ _ _
    obtain rfl : start = [] := List.length_eq_zero_iff.1 (by simpa using hlen)
    cases budget' <;> rfl
  | cons x budget ih =>
    intro budget' start hlen hlen' hblank hsuffix
    by_cases hne : start = []
    · subst hne
      cases budget' <;> rfl
    · -- a round takes one character at least, so the rest of each budget is enough again
      obtain ⟨before, hbefore⟩ := hsuffix
      obtain ⟨s, after, hround⟩ := exists_round hbefore.symm hne hblank
      have hpiece := List.length_pos_iff.2 hround.fits.nonempty
      have hless : after.length < start.length := by
        rw [hround.text]
        simp only [Segment.text, List.length_append]
        omega
      cases budget' with
      | nil =>
        simp only [List.length_nil] at hlen'
        omega
      | cons x' budget' =>
        simp only [List.length_cons] at hlen hlen'
        have hafter : after <:+ source := by
          rw [← hbefore, hround.text]
          exact (List.suffix_append _ _).trans (List.suffix_append _ _)
        rw [hround.salvage, hround.salvage,
          ih budget' after (by omega) (by omega) hround.blank hafter]

/-- Reading with recovery goes on behind a text that is read. -/
theorem ReadsAs.salvageFrom_append {s : List Char} {es : List Entry} (h : ReadsAs s es)
    (source t : List Char) (ht : t <:+ source) : ∀ budget : List Char,
    (s ++ t).length ≤ budget.length →
    salvageFrom source budget (dropBlank (s ++ t))
      = ⟨es ++ (salvageFrom source t (dropBlank t)).entries,
          (salvageFrom source t (dropBlank t)).errors⟩ := by
  have hle : (dropBlank t).length ≤ t.length := (List.dropWhile_suffix _).length_le
  induction h with
  | done h =>
    intro budget hlen
    rw [List.length_append] at hlen
    rw [dropBlank_append_of_nil h, salvageFrom_budget source budget t (dropBlank t) (by omega) hle
      (dropBlank_dropBlank t) ((List.dropWhile_suffix _).trans ht)]
    rfl
  | @next s piece rest e es start reads later ih =>
    intro budget hlen
    obtain ⟨hne, he⟩ := start_append start reads t
    have hless := (entry_result he).2
    have hdrop : (dropBlank (s ++ t)).length ≤ (s ++ t).length :=
      (List.dropWhile_suffix _).length_le
    cases budget with
    | nil =>
      simp only [List.length_nil] at hlen
      omega
    | cons x budget =>
      simp only [List.length_cons] at hlen
      rw [salvageFrom_ok source hne he, ih budget (by omega)]
      rfl

/-- Behind another text, a text has the same errors in other places. -/
theorem salvageFrom_behind (front source budget : List Char) : ∀ start : List Char,
    start <:+ source →
    salvageFrom (front ++ source) budget start
      = ⟨(salvageFrom source budget start).entries,
          (salvageFrom source budget start).errors.map (SyntaxError.behind front)⟩ := by
  induction budget with
  | nil =>
    intro start _
    cases start <;> rfl
  | cons x budget ih =>
    intro start hsuffix
    by_cases hne : start = []
    · subst hne
      rfl
    · cases h : entry start with
      | ok e r =>
        have hr : dropBlank r <:+ source :=
          (List.dropWhile_suffix _).trans ((entry_closes.suffix_ok h).trans hsuffix)
        rw [salvageFrom_ok _ hne h, salvageFrom_ok _ hne h, ih _ hr]
      | fail y r =>
        have hr : r <:+ start := by
          have hsuffix := entry_suffix start
          rwa [h] at hsuffix
        obtain ⟨passed, rfl⟩ := hr
        -- what is skipped does not depend on the text in front, only the error's place does
        obtain ⟨junk, resume, hsplit⟩ : ∃ junk resume,
          splitJunk (passed ++ r) r = (junk, resume) := ⟨_, _, rfl⟩
        have hresume : dropBlank resume <:+ source := by
          have htext := (splitJunk_eq hne hsplit).1
          have htail : resume <:+ passed ++ r := ⟨junk, htext.symm⟩
          exact (List.dropWhile_suffix _).trans (htail.trans hsuffix)
        have hpoint : r <:+ source := (List.suffix_append _ _).trans hsuffix
        rw [salvageFrom_fail _ hne h hsplit, salvageFrom_fail _ hne h hsplit, ih _ hresume,
          SyntaxError.locate_behind front y hpoint, List.map_cons]

/-! ## §4. Both readings. -/

/-- Behind a text that is read, every text is read as by itself: its entries
come next, or its errors, each as far behind the first text as it is behind
the start of the second. -/
theorem reading_composes {a : String} {es : List Entry} (ha : read a = .ok es) (b : String) :
    (read (a ++ b) = match read b with
        | .ok later => .ok (es ++ later)
        | .error e => .error (e.behind a.toList))
      ∧ salvage (a ++ b) = ⟨es ++ (salvage b).entries,
          (salvage b).errors.map (SyntaxError.behind a.toList)⟩ := by
  have hreads : ReadsAs a.toList es := by
    unfold read at ha
    cases h : entries a.toList with
    | fail x r =>
      rw [h] at ha
      exact nomatch ha
    | ok es' r =>
      rw [h] at ha
      obtain rfl := Except.ok.inj ha
      exact readsAs_of_entries h
  have htext : (a ++ b).toList = a.toList ++ b.toList := String.toList_append
  constructor
  · unfold read
    rw [htext, hreads.entries_append]
    cases h : entries b.toList with
    | ok later r => rfl
    | fail x r =>
      have hsuffix : r <:+ b.toList := by
        have hsuffix := entries_suffix b.toList
        rwa [h] at hsuffix
      show Except.error _ = Except.error _
      rw [SyntaxError.locate_behind _ x hsuffix]
  · unfold salvage
    rw [htext, hreads.salvageFrom_append _ _ (List.suffix_append _ _) _ (Nat.le_refl _),
      salvageFrom_behind _ _ _ (dropBlank b.toList) (List.dropWhile_suffix _)]

/-- An error of the first line behind a text of two lines. -/
theorem reading_composes_first_line :
    read "<a>\n/*é*/" = .ok [.entity ⟨"a", false, none, [], []⟩, .comment "é"]
      ∧ read " <b" = .error ⟨.blankAfterId, ⟨1, 4⟩, ""⟩
      ∧ read ("<a>\n/*é*/" ++ " <b") = .error ⟨.blankAfterId, ⟨2, 10⟩, ""⟩ := by
  have ha : read "<a>\n/*é*/" = .ok [.entity ⟨"a", false, none, [], []⟩, .comment "é"] := by cbv
  have hb : read " <b" = .error ⟨.blankAfterId, ⟨1, 4⟩, ""⟩ := by cbv
  have hbehind : Position.behind "<a>\n/*é*/".toList ⟨1, 4⟩ = ⟨2, 10⟩ := by cbv
  have hboth := (reading_composes ha " <b").1
  rw [hb] at hboth
  refine ⟨ha, hb, hboth.trans ?_⟩
  show Except.error (SyntaxError.mk _ (Position.behind _ ⟨1, 4⟩) _) = _
  rw [hbehind]

end Resource

end Phrasebook
