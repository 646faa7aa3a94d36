/-
  Phrasebook.Proofs.Resource.Segment
  ────────────────────────────────
  **HOW A SOURCE SPLITS INTO ENTRIES.**

  A `Segment` is the text of one entry and the blanks behind it.  `Fits` says
  what its text has to do with its entry and its error; `Layout` says that
  segments in a row fit, and `Splits` that they are what a reading with
  recovery gives:

      Layout.text_eq    —  segments in a row are the whole text
      Layout.fits       —  each of them fits where it stands
-/
import Phrasebook.Proofs.Entry.Reader
import Phrasebook.Resource

namespace Phrasebook

namespace Resource

/-! ## §1. Segments. -/

/-- The text of an entry, the blanks behind it, and what came of it. -/
structure Segment where
  piece : List Char
  gap : List Char
  entry : Entry
  error : Option SyntaxError

namespace Segment

/-- All characters of the segment. -/
def text (s : Segment) : List Char :=
  s.piece ++ s.gap

end Segment

/-- Is every character a blank? -/
def AllBlank (s : List Char) : Prop :=
  ∀ c ∈ s, isBlank c = true

/-- The segment is an entry: its piece alone is read as this entry. -/
structure Segment.IsEntry (s : Segment) : Prop where
  nonempty : s.piece ≠ []
  notJunk : ∀ content, s.entry ≠ .junk content
  error : s.error = none
  reads : read (String.ofList s.piece) = .ok [s.entry]
  comment : ∀ content, s.entry = .comment content →
    s.piece = "/*".toList ++ content.toList ++ "*/".toList

/-- The segment between `before` and `after` is junk, and its error is behind
`passed`, the beginning of its piece. -/
structure Segment.IsJunk (before passed after : List Char) (s : Segment) : Prop where
  nonempty : s.piece ≠ []
  entry : s.entry = .junk (String.ofList s.piece)
  rejected : ∃ e, read (String.ofList s.piece) = .error e
  /-- The error is in the piece or at its end. -/
  point : passed <+: s.piece
  /-- An error is never in front of the `<` that reading goes on at. -/
  progress : s.piece.head? = some '<' → passed ≠ []
  error : ∃ expected, s.error = some
    { expected
      position := .after (before ++ passed)
      context := String.ofList ((s.piece.drop passed.length ++ after).take contextLength) }
  /-- Neither behind the error nor behind its first character has it a `<`. -/
  noAngle : '<' ∉ s.piece.drop (max passed.length 1)
  /-- It ends with the source or in front of a `<`. -/
  stops : after = [] ∨ after.head? = some '<'

/-- What the segment between `before` and `after` has to be. -/
def Segment.Fits (before after : List Char) (s : Segment) : Prop :=
  s.IsEntry ∨ ∃ passed, s.IsJunk before passed after

theorem Segment.Fits.nonempty {before after : List Char} {s : Segment}
    (h : s.Fits before after) : s.piece ≠ [] := by
  rcases h with h | ⟨_, h⟩
  · exact h.nonempty
  · exact h.nonempty

/-! ## §2. Segments in a row. -/

/-- The text behind `before` is these segments, and each of them fits. -/
inductive Layout : (before text : List Char) → List Segment → Prop where
  | done (before : List Char) : Layout before [] []
  | next {before after : List Char} {s : Segment} {others : List Segment}
      (fits : s.Fits before (s.gap ++ after)) (gap : AllBlank s.gap)
      (later : Layout (before ++ s.text) after others) :
      Layout before (s.text ++ after) (s :: others)

namespace Layout

variable {before text : List Char} {segments : List Segment}

theorem text_eq (h : Layout before text segments) : text = segments.flatMap Segment.text := by
  induction h with
  | done => rfl
  | next _ _ _ ih => rw [List.flatMap_cons, ← ih]

theorem gap_blank (h : Layout before text segments) : ∀ s ∈ segments, AllBlank s.gap := by
  induction h with
  | done => exact fun s hs => absurd hs List.not_mem_nil
  | next _ gap _ ih =>
    intro s hs
    rcases List.mem_cons.1 hs with rfl | hs
    · exact gap
    · exact ih s hs

/-- Each segment fits between those before it and those after it. -/
theorem fits (h : Layout before text segments) :
    ∀ earlier s later, segments = earlier ++ s :: later →
      s.Fits (before ++ earlier.flatMap Segment.text) (s.gap ++ later.flatMap Segment.text) := by
  induction h with
  | done => exact fun earlier s later heq => absurd heq (by simp)
  | @next before after s₀ others fits gap hlater ih =>
    intro earlier s later heq
    cases earlier with
    | nil =>
      obtain ⟨rfl, rfl⟩ := List.cons.inj heq
      rw [List.flatMap_nil, List.append_nil, ← hlater.text_eq]
      exact fits
    | cons s₁ earlier =>
      obtain ⟨rfl, rfl⟩ := List.cons.inj heq
      have hfits := ih earlier s later rfl
      rw [List.append_assoc] at hfits
      exact hfits

end Layout

/-- The blanks `lead` and these segments are the source, and they are what a
reading with recovery gives. -/
structure Splits (source : String) (lead : List Char) (segments : List Segment) : Prop where
  text : source.toList = lead ++ segments.flatMap Segment.text
  lead_blank : AllBlank lead
  gap_blank : ∀ s ∈ segments, AllBlank s.gap
  entries : (salvage source).entries = segments.map Segment.entry
  errors : (salvage source).errors = segments.filterMap Segment.error
  fits : ∀ earlier s later, segments = earlier ++ s :: later →
    s.Fits (lead ++ earlier.flatMap Segment.text) (s.gap ++ later.flatMap Segment.text)

end Resource

end Phrasebook
