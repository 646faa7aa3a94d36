/-
  Phrasebook.Proofs.Reference.Candidate
  ────────────────────────────────
  **WHAT A REFERENCE STANDS FOR.**

  A scheme is written as chunks of text with slots between them (`Spelled`).
  Its candidate is the same row of chunks and slots, with the slots that have
  a value filled in; what is put in is not looked at again, whatever braces it
  has:

      before?_append          —  a text is found where it stands first
      chunksWithin_append     —  one slot, and the chunk in front of it
      fill_spelled            —  all of them, by induction on the spelling
      references_are_resolved —  which references have candidates, and which
-/
import Mathlib.Data.List.DropRight
import Phrasebook.Reference

namespace Phrasebook

/-! ## §1. The first place where a text stands. -/

theorem isSome_after?_iff {t s : List Char} : (after? t s).isSome = true ↔ t <+: s := by
  rw [Option.isSome_iff_exists]
  constructor
  · rintro ⟨r, h⟩
    exact ⟨r, (after?_eq_some_iff.1 h).symm⟩
  · rintro ⟨r, h⟩
    exact ⟨r, after?_eq_some_iff.2 h.symm⟩

/-- A text that stands nowhere is not found. -/
theorem before?_eq_none {t s : List Char} (h : ¬ t <:+: s) : before? t s = none := by
  induction s with
  | nil =>
    rw [before?, if_neg]
    rintro rfl
    exact h (List.infix_refl [])
  | cons c s ih =>
    rw [List.infix_cons_iff, not_or] at h
    obtain ⟨hhere, hlater⟩ := h
    rw [before?, if_neg (mt isSome_after?_iff.1 hhere), ih hlater]
    rfl

/-- A text is found behind `b` if it does not stand further in front, and so
neither in `b` nor partly in it. -/
theorem before?_append {t b : List Char} (h : ¬ t <:+: b ++ t.dropLast) (r : List Char) :
    before? t (b ++ (t ++ r)) = some (b, t ++ r) := by
  induction b with
  | nil =>
    cases t with
    | nil => exact absurd (List.infix_refl []) h
    | cons c t =>
      have hhere : (after? (c :: t) (c :: (t ++ r))).isSome = true :=
        isSome_after?_iff.2 ⟨r, rfl⟩
      rw [List.nil_append, List.cons_append, before?, if_pos hhere]
  | cons c b ih =>
    have hlater : ¬ t <:+: b ++ t.dropLast := fun hin => h (List.infix_cons hin)
    -- a text that starts here would end in front of the last character of its place
    have hhere : ¬ t <+: c :: (b ++ (t ++ r)) := by
      intro hprefix
      have hfront : c :: (b ++ t.dropLast) <+: c :: (b ++ (t ++ r)) := by
        refine (List.prefix_cons_inj c).2 ((List.prefix_append_right_inj b).2 ?_)
        exact (List.dropLast_prefix t).trans (List.prefix_append t r)
      have hlen : t.length ≤ (c :: (b ++ t.dropLast)).length := by
        simp only [List.length_cons, List.length_append, List.length_dropLast]
        omega
      exact h (List.prefix_of_prefix_length_le hprefix hfront hlen).isInfix
    rw [List.cons_append, before?, if_neg (mt isSome_after?_iff.1 hhere), ih hlater]
    rfl

/-! ## §2. How templates are written. -/

namespace Template

/-- A placeholder as it is written: a name without braces, and blanks around
it. -/
structure Slot where
  before : List Char
  name : List Char
  behind : List Char
  before_blank : ∀ c ∈ before, isBlank c = true
  behind_blank : ∀ c ∈ behind, isBlank c = true
  /-- The blanks around the name are not part of it. -/
  head_solid : ∀ c ∈ name.head?, isBlank c = false
  last_solid : ∀ c ∈ name.getLast?, isBlank c = false
  no_opening : '{' ∉ name
  no_closing : '}' ∉ name

/-- What stands between the braces. -/
def Slot.inner (s : Slot) : List Char :=
  s.before ++ (s.name ++ s.behind)

/-- The slot with its braces. -/
def Slot.written (s : Slot) : List Char :=
  opening ++ (s.inner ++ closing)

/-- A part of a template. -/
inductive Part where
  | chunk (text : List Char)
  | slot (s : Slot)

/-- How a part is written. -/
def Part.written : Part → List Char
  | .chunk text => text
  | .slot s => s.written

/-- Parts that can be told apart as they are written: there is a slot between
any two chunks, no chunk has two opening braces in a row, and none has one in
front of a slot. -/
inductive Spelled : List Part → Prop where
  | done : Spelled []
  | last (text : List Char) (plain : ¬ opening <:+: text) : Spelled [.chunk text]
  | slot (s : Slot) {parts : List Part} (later : Spelled parts) : Spelled (.slot s :: parts)
  | chunk (text : List Char) (s : Slot) {parts : List Part} (plain : ¬ opening <:+: text)
      (apart : text.getLast? ≠ some '{') (later : Spelled parts) :
      Spelled (.chunk text :: .slot s :: parts)

/-- No blank has the form of a brace. -/
theorem isBlank_brace {c : Char} (h : c = '{' ∨ c = '}') : isBlank c = false := by
  rcases h with rfl | rfl <;> decide

/-- Between the braces of a slot there are no others. -/
theorem Slot.not_mem_inner (s : Slot) {c : Char} (hc : c = '{' ∨ c = '}') : c ∉ s.inner := by
  have hname : c ∉ s.name := by
    rcases hc with rfl | rfl
    · exact s.no_opening
    · exact s.no_closing
  have hsolid := isBlank_brace hc
  intro hmem
  rcases List.mem_append.1 hmem with hmem | hmem
  · rw [s.before_blank c hmem] at hsolid
    exact nomatch hsolid
  · rcases List.mem_append.1 hmem with hmem | hmem
    · exact hname hmem
    · rw [s.behind_blank c hmem] at hsolid
      exact nomatch hsolid

/-- The name of a slot is what is left without the blanks around it. -/
theorem Slot.trimBlank_inner (s : Slot) : trimBlank s.inner = s.name := by
  unfold trimBlank inner
  rw [dropBlank_of_blank s.before_blank]
  have hbehind : ∀ c ∈ s.behind.reverse, isBlank c = true :=
    fun c hc => s.behind_blank c (List.mem_reverse.1 hc)
  by_cases hname : s.name = []
  · -- without a name there are only blanks
    rw [hname, List.nil_append]
    have hnone := dropBlank_of_blank s.behind_blank []
    rw [List.append_nil] at hnone
    rw [hnone]
    rfl
  · have hhead : ∀ c ∈ (s.name ++ s.behind).head?, isBlank c = false := by
      obtain ⟨c, name, hcons⟩ := List.exists_cons_of_ne_nil hname
      have hhead := s.head_solid
      rw [hcons] at hhead ⊢
      exact hhead
    have hlast : ∀ c ∈ s.name.reverse.head?, isBlank c = false := by
      rw [List.head?_reverse]
      exact s.last_solid
    rw [dropBlank_of_solid hhead, List.reverse_append, dropBlank_of_blank hbehind,
        dropBlank_of_solid hlast, List.reverse_reverse]

/-- Every text without braces can stand between those of a slot. -/
theorem Slot.exists_inner {inner : List Char} (hopen : '{' ∉ inner) (hclose : '}' ∉ inner) :
    ∃ s : Slot, s.inner = inner := by
  have hback : (dropBlank inner).rdropWhile isBlank ++ (dropBlank inner).rtakeWhile isBlank
      = dropBlank inner := List.rdropWhile_append_rtakeWhile
  have hinner : inner.takeWhile isBlank ++ ((dropBlank inner).rdropWhile isBlank
      ++ (dropBlank inner).rtakeWhile isBlank) = inner := by
    rw [hback]
    exact List.takeWhile_append_dropWhile
  have hmem : ∀ c ∈ (dropBlank inner).rdropWhile isBlank, c ∈ inner :=
    fun c hc => (List.dropWhile_suffix isBlank).mem ((List.rdropWhile_prefix isBlank _).mem hc)
  refine ⟨{
    before := inner.takeWhile isBlank
    name := (dropBlank inner).rdropWhile isBlank
    behind := (dropBlank inner).rtakeWhile isBlank
    before_blank := fun c hc => List.mem_takeWhile_imp hc
    behind_blank := fun c hc => List.mem_rtakeWhile_imp hc
    head_solid := fun c hc => ?_
    last_solid := fun c hc => ?_
    no_opening := fun hc => hopen (hmem _ hc)
    no_closing := fun hc => hclose (hmem _ hc) }, hinner⟩
  · -- the name starts where the blanks in front end
    obtain ⟨rest, hname⟩ := List.head?_eq_some_iff.1 hc
    have hhead := List.head?_dropWhile_not isBlank inner
    unfold dropBlank at hback hname
    rw [← hback, hname] at hhead
    exact hhead
  · have hne : (dropBlank inner).rdropWhile isBlank ≠ [] := by
      intro hnil
      rw [hnil] at hc
      exact nomatch hc
    rw [List.getLast?_eq_getLast_of_ne_nil hne] at hc
    have hlast := List.rdropWhile_last_not isBlank (dropBlank inner) hne
    rw [Option.some.inj hc] at hlast
    simpa using hlast

/-! ## §3. Filling in. -/

/-- A chunk that has no opening, and does not end with half of one either,
has none in front of the first slot behind it. -/
theorem not_infix_half {text : List Char} (plain : ¬ opening <:+: text)
    (apart : text.getLast? ≠ some '{') : ¬ opening <:+: text ++ opening.dropLast := by
  intro hin
  rcases List.infix_concat_iff.1 hin with hend | hin
  · obtain ⟨front, hfront, hsuffix⟩ := (List.suffix_concat_iff.1 hend).resolve_left nofun
    have htwo : ['{'] ++ ['{'] = front ++ ['{'] := hfront
    obtain rfl : front = ['{'] := (List.append_cancel_right htwo).symm
    obtain ⟨rest, rfl⟩ := hsuffix
    exact apart (List.getLast?_concat)
  · exact plain hin

/-- What stands between the braces of a slot ends in front of the first two
closing braces. -/
theorem Slot.not_infix_inner (s : Slot) : ¬ closing <:+: s.inner ++ closing.dropLast := by
  intro hin
  have hcount := hin.sublist.count_le '}'
  have hnone : s.inner.count '}' = 0 := List.count_eq_zero.2 (s.not_mem_inner (.inr rfl))
  rw [List.count_append, hnone] at hcount
  exact absurd hcount (by decide)

/-- One slot, and the chunk in front of it. -/
theorem chunksWithin_append {text : List Char} (h : ¬ opening <:+: text ++ opening.dropLast)
    (s : Slot) (rest : List Char) (b : Char) (budget : List Char) :
    chunksWithin (b :: budget) (text ++ (s.written ++ rest))
      = .plain text :: .placeholder s.inner :: chunksWithin budget rest := by
  have hopened : before? opening (text ++ (s.written ++ rest))
      = some (text, opening ++ (s.inner ++ (closing ++ rest))) := by
    unfold Slot.written
    rw [List.append_assoc, List.append_assoc]
    exact before?_append h _
  have hclosed : before? closing (s.inner ++ (closing ++ rest))
      = some (s.inner, closing ++ rest) := before?_append s.not_infix_inner rest
  rw [chunksWithin, hopened]
  dsimp only
  rw [List.drop_left, hclosed]
  dsimp only
  rw [List.drop_left]

/-- Without an opening, a template is one chunk. -/
theorem chunksWithin_plain {text : List Char} (plain : ¬ opening <:+: text) (budget : List Char) :
    chunksWithin budget text = [.plain text] := by
  cases budget with
  | nil => rfl
  | cons b budget => rw [chunksWithin, before?_eq_none plain]

/-- A part with its slot filled in, if its name has a value. -/
def Part.filled (value : List Char → Option (List Char)) : Part → List Char
  | .chunk text => text
  | .slot s => (value s.name).getD s.written

theorem fillChunk_slot (value : List Char → Option (List Char)) (s : Slot) :
    fillChunk value (.placeholder s.inner) = Part.filled value (.slot s) := by
  show (value (trimBlank s.inner)).getD (opening ++ s.inner ++ closing)
    = (value s.name).getD (opening ++ (s.inner ++ closing))
  rw [s.trimBlank_inner, List.append_assoc]

/-- Whatever the budget is, if it is enough, the template is filled in like
this. -/
def FillsTo (value : List Char → Option (List Char)) (template filled : List Char) : Prop :=
  ∀ budget : List Char, template.length ≤ budget.length →
    (chunksWithin budget template).flatMap (fillChunk value) = filled

section

variable {value : List Char → Option (List Char)} {text rest filled : List Char}

theorem FillsTo.plain (plain : ¬ opening <:+: text) : FillsTo value text text := by
  intro budget _
  rw [chunksWithin_plain plain, List.flatMap_singleton]
  rfl

/-- One slot is filled in, and the rest as it would be alone. -/
theorem FillsTo.append (h : ¬ opening <:+: text ++ opening.dropLast) (s : Slot)
    (later : FillsTo value rest filled) :
    FillsTo value (text ++ (s.written ++ rest))
      (text ++ (Part.filled value (.slot s) ++ filled)) := by
  intro budget hlen
  have hwritten : 2 ≤ s.written.length := by
    unfold Slot.written opening
    simp only [List.length_append, List.length_cons, List.length_nil]
    omega
  simp only [List.length_append] at hlen
  cases budget with
  | nil =>
    simp only [List.length_nil] at hlen
    omega
  | cons b budget =>
    simp only [List.length_cons] at hlen
    rw [chunksWithin_append h, List.flatMap_cons, List.flatMap_cons, fillChunk_slot,
        later budget (by omega)]
    rfl

end

/-- A template is filled in part by part. -/
theorem fill_spelled (value : List Char → Option (List Char)) {parts : List Part}
    (h : Spelled parts) :
    fill value (parts.flatMap Part.written) = parts.flatMap (Part.filled value) := by
  suffices hfills : FillsTo value (parts.flatMap Part.written)
      (parts.flatMap (Part.filled value)) from hfills _ (Nat.le_refl _)
  induction h with
  | done => exact .plain (by decide)
  | last text plain =>
    rw [List.flatMap_singleton, List.flatMap_singleton]
    exact .plain plain
  | slot s later ih =>
    -- nothing is in front of this slot
    have hnone : ¬ opening <:+: [] ++ opening.dropLast := by decide
    exact .append hnone s ih
  | chunk text s plain apart later ih => exact .append (not_infix_half plain apart) s ih

end Template

/-! ## §4. Candidates. -/

namespace Reference

/-- What stands in the candidate of a reference for a part of its scheme.
Without a locale, and for any other name, a slot stands for itself. -/
def partText (r : Reference) (locale : Option String) : Template.Part → List Char
  | .chunk text => text
  | .slot s =>
    if s.name = "locale".toList then
      match locale with
      | some locale => locale.toList
      | none => s.written
    else if s.name = "app".toList then r.app
    else if s.name = "resource".toList then r.resource
    else s.written

theorem filled_eq_partText (r : Reference) (locale : Option String) :
    Template.Part.filled (r.placeholder locale) = r.partText locale := by
  funext part
  cases part with
  | chunk text => rfl
  | slot s =>
    unfold Template.Part.filled partText placeholder
    dsimp only
    split
    · cases locale <;> rfl
    · split
      · rfl
      · split <;> rfl

theorem candidate_spelled (r : Reference) (locale : Option String) {parts : List Template.Part}
    (h : Template.Spelled parts) :
    r.candidate locale (String.ofList (parts.flatMap Template.Part.written))
      = String.ofList (parts.flatMap (r.partText locale)) := by
  unfold candidate
  rw [String.toList_ofList, Template.fill_spelled _ h, filled_eq_partText]

/-- The segments are one or two, and none of them is empty. -/
def WellFormed (segments : List (List Char)) : Prop :=
  (segments.length = 1 ∨ segments.length = 2) ∧ ∀ s ∈ segments, s ≠ []

/-- The segments are those of the reference; a missing app has no text. -/
def HasSegments (r : Reference) (segments : List (List Char)) : Prop :=
  segments = [r.resource] ∧ r.app = [] ∨ segments = [r.app, r.resource]

theorem ofSegments?_of_wellFormed {segments : List (List Char)} (h : WellFormed segments) :
    ∃ r : Reference, ofSegments? segments = some r ∧ r.HasSegments segments := by
  obtain ⟨hlength, hne⟩ := h
  match segments with
  | [] => simp at hlength
  | [resource] =>
    have hresource := hne resource (by simp)
    exact ⟨⟨[], resource⟩, by simp [ofSegments?, hresource], .inl ⟨rfl, rfl⟩⟩
  | [app, resource] =>
    have happ := hne app (by simp)
    have hresource := hne resource (by simp)
    exact ⟨⟨app, resource⟩, by simp [ofSegments?, happ, hresource], .inr rfl⟩
  | _ :: _ :: _ :: _ => simp at hlength

theorem ofSegments?_eq_none {segments : List (List Char)} (h : ¬ WellFormed segments) :
    ofSegments? segments = none := by
  unfold ofSegments?
  split
  · next resource =>
    rw [if_pos]
    by_contra hne
    exact h ⟨.inl rfl, by simpa using hne⟩
  · next app resource =>
    rw [if_pos]
    by_contra hne
    exact h ⟨.inr rfl, by simpa using hne⟩
  · rfl

end Reference

/-- The scheme of references is looked for in front of the URI. -/
theorem resolve_eq (uri : String) (locale : Option String) (schemes : List String)
    {rest : List Char} (h : uri.toList = Reference.scheme ++ rest) :
    resolve uri locale schemes = match Reference.ofSegments? (rest.splitOn ':') with
      | some r => .ok (schemes.map (r.candidate locale))
      | none => .error ⟨uri⟩ := by
  have hafter := after?_eq_some_iff.2 h
  cases hsegments : Reference.ofSegments? (rest.splitOn ':') with
  | some r => simp only [resolve, hafter, hsegments]
  | none => simp only [resolve, hafter, hsegments]

/-- **A reference and its candidates.**  A URI that does not start with
`l10n:` stands for itself.  Any other one is a reference if what follows has
one or two segments, none of them empty, and is malformed otherwise.  A
reference has one candidate for each scheme, in order; the candidate by a
scheme of chunks and slots has the same chunks, the locale, the app and the
resource in place of the slots with these names, and every other slot as it is
written.  Any text without braces can stand in a slot. -/
theorem references_are_resolved (uri : String) (locale : Option String) (schemes : List String) :
    (¬ "l10n:".toList <+: uri.toList → resolve uri locale schemes = .ok [uri])
      ∧ (∀ rest, uri.toList = "l10n:".toList ++ rest →
        ((∃ candidates, resolve uri locale schemes = .ok candidates)
            ↔ Reference.WellFormed (rest.splitOn ':'))
          ∧ (¬ Reference.WellFormed (rest.splitOn ':') →
            resolve uri locale schemes = .error ⟨uri⟩)
          ∧ (Reference.WellFormed (rest.splitOn ':') →
            ∃ r : Reference, r.HasSegments (rest.splitOn ':')
              ∧ resolve uri locale schemes = .ok (schemes.map (r.candidate locale))
              ∧ ∀ parts, Template.Spelled parts →
                r.candidate locale (String.ofList (parts.flatMap Template.Part.written))
                  = String.ofList (parts.flatMap (r.partText locale))))
      ∧ ∀ inner, '{' ∉ inner → '}' ∉ inner → ∃ s : Template.Slot, s.inner = inner := by
  have hscheme : "l10n:".toList = Reference.scheme := by decide
  rw [hscheme]
  refine ⟨fun hplain => ?_, fun rest hrest => ?_, fun inner => Template.Slot.exists_inner⟩
  · have hnone : after? Reference.scheme uri.toList = none :=
      Option.not_isSome_iff_eq_none.1 (mt isSome_after?_iff.1 hplain)
    unfold resolve
    rw [hnone]
  · have hresolve := resolve_eq uri locale schemes hrest
    have hrefused : ¬ Reference.WellFormed (rest.splitOn ':') →
        resolve uri locale schemes = .error ⟨uri⟩ := by
      intro hnot
      rw [hresolve, Reference.ofSegments?_eq_none hnot]
    have haccepted : Reference.WellFormed (rest.splitOn ':') → ∃ r : Reference,
        r.HasSegments (rest.splitOn ':')
          ∧ resolve uri locale schemes = .ok (schemes.map (r.candidate locale)) := by
      intro hwell
      obtain ⟨r, hr, hsegments⟩ := Reference.ofSegments?_of_wellFormed hwell
      rw [hresolve, hr]
      exact ⟨r, hsegments, rfl⟩
    refine ⟨⟨fun ⟨candidates, hok⟩ => ?_, fun hwell => ?_⟩, hrefused, fun hwell => ?_⟩
    · by_contra hnot
      rw [hrefused hnot] at hok
      exact nomatch hok
    · obtain ⟨r, -, hr⟩ := haccepted hwell
      exact ⟨_, hr⟩
    · obtain ⟨r, hsegments, hr⟩ := haccepted hwell
      exact ⟨r, hsegments, hr, fun parts => r.candidate_spelled locale⟩

/-- Values keep their braces, and so do slots without a value. -/
example :
    resolve "l10n:\x7b\x7bapp\x7d\x7d" none
        ["\x7b\x7blocale\x7d\x7d/\x7b\x7b resource \x7d\x7d\x7b.lol"]
      = .ok ["\x7b\x7blocale\x7d\x7d/\x7b\x7bapp\x7d\x7d\x7b.lol"] := by
  decide +kernel

end Phrasebook
