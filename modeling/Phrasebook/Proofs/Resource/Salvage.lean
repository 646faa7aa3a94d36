/-
  Phrasebook.Proofs.Resource.Salvage
  ────────────────────────────────
  **RECOVERY ACCOUNTS FOR EVERY CHARACTER.**

  A reading with recovery splits its source into segments, each an entry that
  is read alone as it is read in the source, or junk that is no entry alone
  either:

      splitJunk_eq        —  junk goes from a failed entry to the next `<`
      salvageFrom_layout  —  the segments, by induction on the budget
-/
import Phrasebook.Proofs.Resource.Segment

namespace Phrasebook

open Phrasebook.Parser

/-! ## §1. Blanks. -/

/-- The beginning of a text without a blank in front has none in front. -/
theorem dropBlank_of_append {p r : List Char} (hp : p ≠ []) (h : dropBlank (p ++ r) = p ++ r) :
    dropBlank p = p := by
  obtain ⟨c, p, rfl⟩ := List.exists_cons_of_ne_nil hp
  have hc : isBlank c = false := head_of_dropWhile_eq h
  unfold dropBlank
  rw [List.dropWhile_cons_of_neg (by simp [hc])]

namespace Resource

theorem exists_blank_append (s : List Char) : ∃ gap, AllBlank gap ∧ s = gap ++ dropBlank s :=
  ⟨s.takeWhile isBlank, fun c hc => List.all_eq_true.1 List.all_takeWhile c hc,
    List.takeWhile_append_dropWhile.symm⟩

/-! ## §2. Reading one entry after another. -/

theorem nextEntry_cons (c : Char) (s : List Char) :
    nextEntry (c :: s) = (entry (c :: s)).bind fun e r => .ok (some e) (dropBlank r) :=
  rfl

theorem nextEntry_advances : Advances nextEntry := by
  intro s e r h
  cases s with
  | nil => exact nomatch h
  | cons c s =>
    rw [nextEntry_cons] at h
    cases he : entry (c :: s) with
    | fail x q =>
      rw [he] at h
      exact nomatch h
    | ok e' q =>
      rw [he] at h
      obtain ⟨-, rfl⟩ := Outcome.ok.inj h
      have hq := (entry_result he).2
      have hle : (dropBlank q).length ≤ q.length := (List.dropWhile_suffix _).length_le
      omega

theorem collect_nil : collect nextEntry [] = .ok [] [] :=
  collect_none rfl

theorem collect_of_ok {s r : List Char} {e : Entry} (hs : s ≠ []) (h : entry s = .ok e r) :
    collect nextEntry s
      = (collect nextEntry (dropBlank r)).bind fun es r => .ok (e :: es) r := by
  obtain ⟨c, s, rfl⟩ := List.exists_cons_of_ne_nil hs
  refine collect_some nextEntry_advances ?_
  rw [nextEntry_cons, h]
  rfl

theorem collect_of_fail {s r : List Char} {x : Expected} (hs : s ≠ [])
    (h : entry s = .fail x r) : collect nextEntry s = .fail x r := by
  obtain ⟨c, s, rfl⟩ := List.exists_cons_of_ne_nil hs
  refine collect_fail ?_
  rw [nextEntry_cons, h]
  rfl

theorem entries_ofList {s : List Char} (h : dropBlank s = s) :
    entries (String.ofList s).toList = collect nextEntry s := by
  have htext : (String.ofList s).toList = s := String.toList_ofList
  have hentries : entries s = collect nextEntry (dropBlank s) := rfl
  rw [htext, hentries, h]

/-- An entry that is all of a text. -/
theorem read_of_ok {s : List Char} {e : Entry} (hs : s ≠ []) (hblank : dropBlank s = s)
    (h : entry s = .ok e []) : read (String.ofList s) = .ok [e] := by
  have hnil : dropBlank [] = [] := rfl
  have hcollect : collect nextEntry s = .ok [e] [] := by
    rw [collect_of_ok hs h, hnil, collect_nil]
    rfl
  unfold read
  simp only [entries_ofList hblank, hcollect]

theorem read_of_fail {s r : List Char} {x : Expected} (hs : s ≠ []) (hblank : dropBlank s = s)
    (h : entry s = .fail x r) : ∃ e, read (String.ofList s) = .error e := by
  refine ⟨.locate (String.ofList s).toList x r, ?_⟩
  unfold read
  simp only [entries_ofList hblank, collect_of_fail hs h]

/-! ## §3. Junk. -/

/-- The error of a reader stands behind what it has read. -/
theorem locate_append (read rest : List Char) (x : Expected) :
    SyntaxError.locate (read ++ rest) x rest
      = ⟨x, .after read, String.ofList (rest.take contextLength)⟩ := by
  have hlen : (read ++ rest).length - rest.length = read.length := by
    rw [List.length_append]
    omega
  unfold SyntaxError.locate
  rw [hlen, List.take_left]

/-- Junk takes what has been passed, at least one character, and all
characters up to the next `<`. -/
theorem splitJunk_eq {passed rest junk resume : List Char} (hne : passed ++ rest ≠ [])
    (h : splitJunk (passed ++ rest) rest = (junk, resume)) :
    passed ++ rest = junk ++ resume ∧ junk ≠ [] ∧ passed <+: junk
      ∧ '<' ∉ junk.drop (max passed.length 1) ∧ (resume = [] ∨ resume.head? = some '<') := by
  have hpassed : (passed ++ rest).length - rest.length = passed.length := by
    rw [List.length_append]
    omega
  unfold splitJunk at h
  rw [hpassed] at h
  obtain ⟨rfl, rfl⟩ := Prod.mk.inj h
  have hone : 1 ≤ (passed ++ rest).length := List.length_pos_iff.2 hne
  have hlen : max passed.length 1 ≤ (passed ++ rest).length := by
    rw [List.length_append] at hone ⊢
    omega
  have htake : ((passed ++ rest).take (max passed.length 1)).length = max passed.length 1 :=
    List.length_take_of_le hlen
  refine ⟨?_, ?_, ?_, ?_, ?_⟩
  · rw [List.append_assoc, List.takeWhile_append_dropWhile, List.take_append_drop]
  · -- at least one character is skipped
    intro hnil
    have htnil := (List.append_eq_nil_iff.1 hnil).1
    rw [htnil] at htake
    simp only [List.length_nil] at htake
    omega
  · have hstart : (passed ++ rest).take (max passed.length 1)
        = passed ++ rest.take (max passed.length 1 - passed.length) := by
      rw [List.take_append, List.take_of_length_le (by omega)]
    rw [hstart, List.append_assoc]
    exact List.prefix_append _ _
  · rw [List.drop_append_of_le_length (by omega), List.drop_of_length_le (by omega),
        List.nil_append]
    intro hmem
    have := List.all_eq_true.1 List.all_takeWhile _ hmem
    simp at this
  · cases hd : ((passed ++ rest).drop (max passed.length 1)).dropWhile (· != '<') with
    | nil => exact .inl rfl
    | cons c r =>
      refine .inr ?_
      have hhead := List.head?_dropWhile_not (· != '<') ((passed ++ rest).drop (max passed.length 1))
      rw [hd] at hhead
      simpa using hhead

/-! ## §4. Segments of a reading with recovery. -/

/-- What is read as an entry is an entry alone. -/
theorem isEntry_of_ok {piece rest : List Char} {e : Entry} (gap : List Char)
    (hblank : dropBlank (piece ++ rest) = piece ++ rest)
    (h : entry (piece ++ rest) = .ok e rest) : Segment.IsEntry ⟨piece, gap, e, none⟩ := by
  obtain ⟨hsealed, hclosed⟩ := entry_closed h
  have halone : entry piece = .ok e [] := by
    have := hclosed []
    rwa [List.append_nil] at this
  refine ⟨hsealed.ne_nil, ?_, rfl, ?_, ?_⟩
  · rintro content rfl
    exact (entry_result h).1
  · exact read_of_ok hsealed.ne_nil (dropBlank_of_append hsealed.ne_nil hblank) halone
  · rintro content rfl
    have hpiece := entry_comment_eq halone
    rwa [List.append_nil] at hpiece

/-- A beginning of a text that is an entry alone is one in the text as well,
so what is skipped as junk is no entry alone. -/
theorem rejected_of_fail {piece after rest : List Char} {x : Expected} (hne : piece ≠ [])
    (hblank : dropBlank (piece ++ after) = piece ++ after)
    (h : entry (piece ++ after) = .fail x rest) :
    ∃ e, read (String.ofList piece) = .error e := by
  have hpiece : dropBlank piece = piece := dropBlank_of_append hne hblank
  cases halone : entry piece with
  | fail y q => exact read_of_fail hne hpiece halone
  | ok e q =>
    obtain ⟨c, hc⟩ : q <:+ piece := entry_closes.suffix_ok halone
    rw [← hc] at halone
    have hmore := (entry_closed halone).2 (q ++ after)
    rw [← List.append_assoc, hc, h] at hmore
    exact nomatch hmore

theorem isJunk_of_fail (before : List Char) {passed rest junk resume : List Char} {x : Expected}
    (hne : passed ++ rest ≠ []) (hblank : dropBlank (passed ++ rest) = passed ++ rest)
    (h : entry (passed ++ rest) = .fail x rest)
    (hsplit : splitJunk (passed ++ rest) rest = (junk, resume)) (gap : List Char) :
    Segment.IsJunk before passed resume
      ⟨junk, gap, .junk (String.ofList junk),
        some (.locate (before ++ (passed ++ rest)) x rest)⟩ := by
  obtain ⟨htext, hjunk, hpoint, hangle, hstops⟩ := splitJunk_eq hne hsplit
  refine ⟨hjunk, rfl, ?_, hpoint, ?_, ⟨x, ?_⟩, hangle, hstops⟩
  · rw [htext] at hblank h
    exact rejected_of_fail hjunk hblank h
  · -- an entry that starts with an angle reads it before it fails
    rintro hhead rfl
    obtain ⟨c, junk, rfl⟩ := List.exists_cons_of_ne_nil hjunk
    obtain rfl : c = '<' := Option.some.inj hhead
    rw [List.nil_append] at h htext
    have hsuffix := (entry_angle_suffix (junk ++ resume)).length_le
    rw [htext] at h
    rw [show '<' :: (junk ++ resume) = '<' :: junk ++ resume from rfl, h] at hsuffix
    simp only [Outcome.rest, List.cons_append, List.length_cons] at hsuffix
    omega
  · obtain ⟨unread, hunread⟩ := hpoint
    have hrest : rest = unread ++ resume := by
      rw [← hunread, List.append_assoc] at htext
      exact List.append_cancel_left htext
    rw [← List.append_assoc, locate_append, ← hunread, List.drop_left, hrest]

/-! ## §5. One round, and all of them. -/

/-- One round of a reading with recovery, in front of `start` and behind
`before`: the segment `s` is read, and `after` is left. -/
structure Round (source before start : List Char) (s : Segment) (after : List Char) : Prop where
  text : start = s.text ++ after
  blank : dropBlank after = after
  gap : AllBlank s.gap
  fits : s.Fits before (s.gap ++ after)
  salvage : ∀ x budget, salvageFrom source (x :: budget) start
    = ⟨s.entry :: (salvageFrom source budget after).entries,
        s.error.toList ++ (salvageFrom source budget after).errors⟩

theorem salvageFrom_ok (source : List Char) {start r : List Char} {e : Entry} (hne : start ≠ [])
    (h : entry start = .ok e r) (x : Char) (budget : List Char) :
    salvageFrom source (x :: budget) start
      = ⟨e :: (salvageFrom source budget (dropBlank r)).entries,
          (salvageFrom source budget (dropBlank r)).errors⟩ := by
  obtain ⟨c, s, rfl⟩ := List.exists_cons_of_ne_nil hne
  rw [salvageFrom, h]

theorem salvageFrom_fail (source : List Char) {start r junk resume : List Char} {y : Expected}
    (hne : start ≠ []) (h : entry start = .fail y r) (hsplit : splitJunk start r = (junk, resume))
    (x : Char) (budget : List Char) :
    salvageFrom source (x :: budget) start
      = ⟨.junk (String.ofList junk) :: (salvageFrom source budget (dropBlank resume)).entries,
          .locate source y r :: (salvageFrom source budget (dropBlank resume)).errors⟩ := by
  obtain ⟨c, s, rfl⟩ := List.exists_cons_of_ne_nil hne
  rw [salvageFrom, h]
  simp only [hsplit]

theorem round_of_ok {source before start r : List Char} {e : Entry} (hne : start ≠ [])
    (hblank : dropBlank start = start) (h : entry start = .ok e r) :
    ∃ s, Round source before start s (dropBlank r) := by
  obtain ⟨piece, rfl⟩ : r <:+ start := entry_closes.suffix_ok h
  obtain ⟨gap, hgap, hr⟩ := exists_blank_append r
  refine ⟨⟨piece, gap, e, none⟩, ?_, dropBlank_dropBlank r, hgap, ?_, ?_⟩
  · show piece ++ r = (piece ++ gap) ++ dropBlank r
    rw [List.append_assoc, ← hr]
  · exact .inl (isEntry_of_ok gap hblank h)
  · exact salvageFrom_ok source hne h

theorem round_of_fail {source before start r : List Char} {x : Expected}
    (hsource : source = before ++ start) (hne : start ≠ []) (hblank : dropBlank start = start)
    (h : entry start = .fail x r) : ∃ s after, Round source before start s after := by
  have hsuffix := entry_suffix start
  rw [h] at hsuffix
  obtain ⟨passed, rfl⟩ : r <:+ start := hsuffix
  obtain ⟨junk, resume, hsplit⟩ : ∃ junk resume, splitJunk (passed ++ r) r = (junk, resume) :=
    ⟨_, _, rfl⟩
  obtain ⟨gap, hgap, hresume⟩ := exists_blank_append resume
  have hjunk := isJunk_of_fail before hne hblank h hsplit gap
  refine ⟨⟨junk, gap, .junk (String.ofList junk), some (.locate (before ++ (passed ++ r)) x r)⟩,
    dropBlank resume, ?_, dropBlank_dropBlank resume, hgap, .inr ⟨passed, ?_⟩, ?_⟩
  · show passed ++ r = (junk ++ gap) ++ dropBlank resume
    rw [List.append_assoc, ← hresume]
    exact (splitJunk_eq hne hsplit).1
  · show Segment.IsJunk before passed (gap ++ dropBlank resume) _
    rw [← hresume]
    exact hjunk
  · rw [← hsource]
    exact salvageFrom_fail source hne h hsplit

theorem exists_round {source before start : List Char} (hsource : source = before ++ start)
    (hne : start ≠ []) (hblank : dropBlank start = start) :
    ∃ s after, Round source before start s after := by
  cases h : entry start with
  | ok e r =>
    obtain ⟨s, hs⟩ := round_of_ok hne hblank h
    exact ⟨s, _, hs⟩
  | fail x r => exact round_of_fail hsource hne hblank h

/-- Reading with recovery goes through its text segment by segment; the
budget is enough, since no segment is empty. -/
theorem salvageFrom_layout (source budget : List Char) :
    ∀ before start : List Char, source = before ++ start → start.length ≤ budget.length →
      dropBlank start = start →
      ∃ segments, Layout before start segments
        ∧ (salvageFrom source budget start).entries = segments.map Segment.entry
        ∧ (salvageFrom source budget start).errors = segments.filterMap Segment.error := by
  induction budget with
  | nil =>
    intro before start _ hlen _
    obtain rfl : start = [] := List.length_eq_zero_iff.1 (by simpa using hlen)
    exact ⟨[], .done before, rfl, rfl⟩
  | cons x budget ih =>
    intro before start hsource hlen hblank
    by_cases hne : start = []
    · subst hne
      exact ⟨[], .done before, rfl, rfl⟩
    · obtain ⟨s, after, hround⟩ := exists_round hsource hne hblank
      -- a piece has at least one character, so the budget lasts
      have hless : after.length ≤ budget.length := by
        have hpiece := List.length_pos_iff.2 hround.fits.nonempty
        have htext := congrArg List.length hround.text
        simp only [Segment.text, List.length_append] at htext
        simp only [List.length_cons] at hlen
        omega
      have hafter : source = (before ++ s.text) ++ after := by
        rw [hsource, hround.text, List.append_assoc]
      obtain ⟨segments, hlayout, hentries, herrors⟩ :=
        ih (before ++ s.text) after hafter hless hround.blank
      refine ⟨s :: segments, ?_, ?_, ?_⟩
      · rw [hround.text]
        exact .next hround.fits hround.gap hlayout
      · rw [hround.salvage, hentries, List.map_cons]
      · rw [hround.salvage, herrors]
        cases hs : s.error with
        | none => rw [List.filterMap_cons_none hs, Option.toList_none, List.nil_append]
        | some e => rw [List.filterMap_cons_some hs, Option.toList_some, List.singleton_append]

theorem salvage_layout (source : String) :
    ∃ lead segments, AllBlank lead ∧ source.toList = lead ++ dropBlank source.toList
      ∧ Layout lead (dropBlank source.toList) segments ∧ Splits source lead segments := by
  obtain ⟨lead, hlead, hsource⟩ := exists_blank_append source.toList
  have hlen : (dropBlank source.toList).length ≤ source.toList.length :=
    (List.dropWhile_suffix _).length_le
  obtain ⟨segments, hlayout, hentries, herrors⟩ := salvageFrom_layout source.toList source.toList
    lead (dropBlank source.toList) hsource hlen (dropBlank_dropBlank _)
  refine ⟨lead, segments, hlead, hsource, hlayout, ?_, hlead, hlayout.gap_blank, hentries, herrors,
    hlayout.fits⟩
  rw [← hlayout.text_eq]
  exact hsource

/-- Every source splits into blanks and one piece for each entry of its
reading with recovery. -/
theorem salvage_splits (source : String) : ∃ lead segments, Splits source lead segments := by
  obtain ⟨lead, segments, -, -, -, hsplits⟩ := salvage_layout source
  exact ⟨lead, segments, hsplits⟩

end Resource

end Phrasebook
