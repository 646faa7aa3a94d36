/-
  Phrasebook.Proofs.Text.Position
  ────────────────────────────────
  **POSITIONS, BYTE OFFSETS AND TEXTS IN FRONT.**

      offset_after    —  the byte offset of the position behind a text is the
                         number of its bytes, whatever follows
      ofOffset_byteLength
                      —  and this number leads back to the position
      after_behind    —  a text in front moves a position by its lines, and in
                         the first line by the bytes of its last one
      offset_eq_min   —  the byte offset is a sum of lines, but for texts that
                         are too short
      reach_after     —  which they never are for the positions in them
      after_injective —  and no two places in a text have one position
-/
import Mathlib.Data.List.DropRight
import Phrasebook.Text.Position

namespace Phrasebook

namespace Position

/-! ## §1. Byte offsets. -/

theorem lines_ne_nil {s : List Char} (h : s ≠ []) : lines s ≠ [] := by
  cases s with
  | nil => exact absurd rfl h
  | cons c s =>
    unfold lines
    split
    · simp
    · split <;> simp

/-- Reading on never goes back a line. -/
theorem line_le_foldl (p : List Char) (q : Position) : q.line ≤ (p.foldl advance q).line := by
  induction p generalizing q with
  | nil => exact Nat.le_refl _
  | cons c p ih =>
    have hstep : q.line ≤ (advance q c).line := by
      unfold advance
      split
      · exact Nat.le_succ _
      · exact Nat.le_refl _
    exact Nat.le_trans hstep (ih _)

/-- The bytes of the lines that a reader has left and its column in the
current line, counted from where it started. -/
theorem byteLength_take_lines (p r : List Char) (q : Position) :
    byteLength ((lines (p ++ r)).take ((p.foldl advance q).line - q.line)).flatten
        + (p.foldl advance q).column
      = byteLength p + if (p.foldl advance q).line = q.line then q.column else 1 := by
  induction p generalizing q with
  | nil => simp [byteLength]
  | cons c p ih =>
    have hq := line_le_foldl p (advance q c)
    have hnil : p = [] → (p.foldl advance (advance q c)).line = (advance q c).line := by
      rintro rfl
      rfl
    have hind := ih (advance q c)
    rw [List.foldl_cons, List.cons_append]
    generalize p.foldl advance (advance q c) = last at hq hnil hind ⊢
    by_cases hc : c = '\n'
    · -- the first line is over, and the rest starts in a new column
      subst hc
      have hadv : advance q '\n' = ⟨q.line + 1, 1⟩ := rfl
      rw [hadv] at hq hind
      have hne : last.line ≠ q.line := by
        simp only at hq
        omega
      have htake : last.line - q.line = (last.line - (q.line + 1)) + 1 := by
        simp only at hq
        omega
      have hsize : ('\n').utf8Size = 1 := by decide
      simp only [ite_self] at hind
      rw [lines, if_pos rfl, if_neg hne, htake, List.take_succ_cons, List.flatten_cons,
          byteLength_append]
      simp only [byteLength, hsize]
      omega
    · have hadv : advance q c = ⟨q.line, q.column + c.utf8Size⟩ := by
        rw [advance, if_neg hc]
      rw [hadv] at hq hnil hind
      simp only at hq hnil hind
      by_cases hline : last.line = q.line
      · rw [if_pos hline, hline, Nat.sub_self] at hind ⊢
        simp only [List.take_zero, List.flatten_nil, byteLength] at hind ⊢
        omega
      · -- a line feed is still to come, so the rest has a first line
        have hlines : lines (p ++ r) ≠ [] := by
          refine lines_ne_nil fun hpr => hline (hnil ?_)
          exact (List.append_eq_nil_iff.1 hpr).1
        obtain ⟨l, ls, hl⟩ := List.exists_cons_of_ne_nil hlines
        have htake : last.line - q.line = (last.line - q.line - 1) + 1 := by omega
        rw [if_neg hline, htake, hl] at hind
        rw [if_neg hline, htake, lines, if_neg hc, hl]
        simp only [List.take_succ_cons, List.flatten_cons, byteLength_append, byteLength,
          List.cons_append] at hind ⊢
        omega

theorem one_le_column (p : List Char) (q : Position) (hq : 1 ≤ q.column) :
    1 ≤ (p.foldl advance q).column := by
  induction p generalizing q with
  | nil => exact hq
  | cons c p ih =>
    refine ih _ ?_
    unfold advance
    split
    · exact Nat.le_refl 1
    · exact Nat.le_trans hq (Nat.le_add_right _ _)

/-- The lines in front of the position behind a text, and the columns in front
of it, are the bytes of the text. -/
theorem byteLength_take_after (p r : List Char) :
    byteLength ((lines (p ++ r)).take ((after p).line - 1)).flatten + ((after p).column - 1)
      = byteLength p := by
  have hcolumn := one_le_column p start (Nat.le_refl 1)
  have hbytes := byteLength_take_lines p r start
  have hstart : (if (after p).line = start.line then start.column else 1) = 1 := ite_self 1
  unfold after at hstart ⊢
  rw [hstart] at hbytes
  have hone : start.line = 1 := rfl
  rw [hone] at hbytes
  omega

/-- The byte offset of the position behind a text is the number of its
bytes. -/
theorem offset_after (p r : List Char) : offset (after p) (p ++ r) = byteLength p := by
  have hbytes := byteLength_take_after p r
  unfold offset
  rw [byteLength_append]
  omega

theorem takeBytes_append (p r : List Char) : takeBytes (byteLength p) (p ++ r) = p := by
  induction p with
  | nil =>
    cases r with
    | nil => rfl
    | cons c r =>
      -- the next character has a byte at least
      have hpos := c.utf8Size_pos
      show (if c.utf8Size ≤ 0 then _ else _) = _
      exact if_neg (by omega)
  | cons c p ih =>
    rw [byteLength, List.cons_append, takeBytes, if_pos (Nat.le_add_right _ _),
        Nat.add_sub_cancel_left, ih]

/-- The position of a number of bytes is that behind the text which has so
many. -/
theorem ofOffset_byteLength (p r : List Char) : ofOffset (byteLength p) (p ++ r) = after p := by
  unfold ofOffset
  rw [takeBytes_append]

/-! ## §2. Behind another text. -/

/-- What a text has behind its last line feed. -/
def lastLine (s : List Char) : List Char :=
  s.rtakeWhile (· != '\n')

/-- The same position if there is another text in front. -/
def behind (front : List Char) (p : Position) : Position where
  line := p.line + front.count '\n'
  column := if p.line = 1 then p.column + byteLength (lastLine front) else p.column

theorem lastLine_concat (s : List Char) (c : Char) :
    lastLine (s ++ [c]) = if c = '\n' then [] else lastLine s ++ [c] := by
  unfold lastLine
  rw [List.rtakeWhile_concat]
  by_cases hc : c = '\n'
  · rw [if_pos hc, if_neg (by simpa using hc)]
  · rw [if_neg hc, if_pos (by simpa using hc)]

/-- A line feed starts a line, and columns count the bytes of the last one. -/
theorem after_eq (s : List Char) : after s = ⟨s.count '\n' + 1, byteLength (lastLine s) + 1⟩ := by
  -- from the end, since the last character decides which line is the last
  induction s using List.reverseRecOn with
  | nil => rfl
  | append_singleton s c ih =>
    have hstep : after (s ++ [c]) = advance (after s) c := after_append s [c]
    rw [hstep, ih, List.count_append, lastLine_concat]
    unfold advance
    by_cases hc : c = '\n'
    · subst hc
      rw [if_pos rfl, if_pos rfl]
      rfl
    · have hnone : [c].count '\n' = 0 := List.count_eq_zero.2 (by simpa using Ne.symm hc)
      rw [if_neg hc, if_neg hc, hnone, byteLength_append]
      have hcolumn : byteLength (lastLine s) + 1 + c.utf8Size
          = byteLength (lastLine s) + byteLength [c] + 1 := by
        simp only [byteLength]
        omega
      exact congrArg (Position.mk _) hcolumn

/-- A text without line feeds goes on with the last line of another one. -/
theorem lastLine_append (front s : List Char) :
    lastLine (front ++ s) = if s.count '\n' = 0 then lastLine front ++ s else lastLine s := by
  induction s using List.reverseRecOn with
  | nil => simp
  | append_singleton s c ih =>
    rw [← List.append_assoc, lastLine_concat, lastLine_concat, ih, List.count_append]
    by_cases hc : c = '\n'
    · subst hc
      rw [if_pos rfl, if_pos rfl]
      exact (if_neg (Nat.succ_ne_zero _)).symm
    · have hnone : [c].count '\n' = 0 := List.count_eq_zero.2 (by simpa using Ne.symm hc)
      rw [if_neg hc, if_neg hc, hnone, Nat.add_zero]
      split
      · rw [List.append_assoc]
      · rfl

/-- Behind another text, a position is further down by its line feeds, and in
the first line further right by the bytes of its last line. -/
theorem after_behind (front s : List Char) : after (front ++ s) = (after s).behind front := by
  rw [after_eq, after_eq, List.count_append, lastLine_append]
  unfold behind
  by_cases hs : s.count '\n' = 0
  · -- only the first line goes on with a line of the text in front
    have hlast : lastLine s = s := by
      have hself := lastLine_append [] s
      rw [if_pos hs] at hself
      exact hself
    rw [if_pos hs, hs, hlast, byteLength_append]
    simp only [Nat.zero_add, Nat.add_zero, if_true, Position.mk.injEq]
    omega
  · have hline : s.count '\n' + 1 ≠ 1 := by omega
    simp only [if_neg hs, if_neg hline, Position.mk.injEq, and_true]
    omega

/-! ## §3. Lines summed up. -/

/-- The bytes of lines, each with a line feed behind it. -/
def lineBytes : List (List Char) → Nat
  | [] => 0
  | l :: ls => byteLength l + 1 + lineBytes ls

/-- The byte offset that a position has if the text is split at its line
feeds, whether or not the text goes so far. -/
def reach (p : Position) (text : List Char) : Nat :=
  lineBytes ((text.splitOn '\n').take (p.line - 1)) + (p.column - 1)

theorem splitOn_feed (s : List Char) : ('\n' :: s).splitOn '\n' = [] :: s.splitOn '\n' := by
  unfold List.splitOn
  rw [List.splitOnP_cons_eq_if_modifyHead, if_pos (beq_self_eq_true '\n')]

/-- A character that is not a line feed belongs to the first line. -/
theorem exists_splitOn_cons {c : Char} (hc : c ≠ '\n') (s : List Char) :
    ∃ l ls, s.splitOn '\n' = l :: ls ∧ (c :: s).splitOn '\n' = (c :: l) :: ls := by
  obtain ⟨l, ls, hs⟩ := List.exists_cons_of_ne_nil (List.splitOnP_ne_nil (· == '\n') s)
  refine ⟨l, ls, hs, ?_⟩
  unfold List.splitOn
  rw [List.splitOnP_cons_eq_if_modifyHead, if_neg (by simpa using hc), hs, List.modifyHead_cons]

/-- The lines of a text have the bytes that they have if it is split, as far
as it has line feeds.  Behind the last one there is no line feed to count. -/
theorem lineBytes_take (s : List Char) : ∀ n : Nat,
    byteLength ((lines s).take n).flatten
      = if n ≤ s.count '\n' then lineBytes ((s.splitOn '\n').take n) else byteLength s := by
  induction s with
  | nil =>
    intro n
    cases n <;> rfl
  | cons c s ih =>
    intro n
    cases n with
    | zero => simp [byteLength, lineBytes]
    | succ n =>
      by_cases hc : c = '\n'
      · subst hc
        have hn := ih n
        rw [lines, if_pos rfl, splitOn_feed, List.take_succ_cons, List.take_succ_cons,
            List.flatten_cons, byteLength_append, hn, List.count_cons_self]
        simp only [lineBytes, byteLength]
        have hsize : ('\n').utf8Size = 1 := by decide
        split <;> split <;> omega
      · obtain ⟨l, ls, hs, hcons⟩ := exists_splitOn_cons hc s
        have hn := ih (n + 1)
        have hcount : (c :: s).count '\n' = s.count '\n' :=
          List.count_cons_of_ne hc
        rw [lines, if_neg hc, hcons, hcount]
        rw [hs] at hn
        cases hlines : lines s with
        | nil =>
          have hnil : s = [] := by
            by_contra hne
            exact lines_ne_nil hne hlines
          subst hnil
          simp [byteLength]
        | cons m ms =>
          rw [hlines] at hn
          simp only [List.take_succ_cons, List.flatten_cons, List.cons_append, byteLength,
            byteLength_append, lineBytes] at hn ⊢
          split at hn <;> split <;> omega

/-- All lines of a split text have one byte more than the text: there is no
line feed behind the last one. -/
theorem lineBytes_splitOn (s : List Char) :
    (s.splitOn '\n').length = s.count '\n' + 1
      ∧ lineBytes (s.splitOn '\n') = byteLength s + 1 := by
  induction s with
  | nil => exact ⟨rfl, rfl⟩
  | cons c s ih =>
    obtain ⟨hlength, hbytes⟩ := ih
    by_cases hc : c = '\n'
    · subst hc
      have hsize : ('\n').utf8Size = 1 := by decide
      rw [splitOn_feed, List.length_cons, hlength, List.count_cons_self]
      refine ⟨rfl, ?_⟩
      rw [lineBytes, hbytes]
      simp only [byteLength]
      omega
    · obtain ⟨l, ls, hs, hcons⟩ := exists_splitOn_cons hc s
      rw [hs] at hlength hbytes
      rw [hcons, List.count_cons_of_ne hc]
      refine ⟨hlength, ?_⟩
      simp only [lineBytes, byteLength] at hbytes ⊢
      omega

/-- The byte offset of a position is where it reaches, or the end of the text
if it reaches further. -/
theorem offset_eq_min (p : Position) (text : List Char) :
    offset p text = min (reach p text) (byteLength text) := by
  have hlines := lineBytes_take text (p.line - 1)
  unfold offset reach
  by_cases hline : p.line - 1 ≤ text.count '\n'
  · rw [if_pos hline] at hlines
    rw [hlines]
  · -- behind the last line, both are past the end
    obtain ⟨hlength, hbytes⟩ := lineBytes_splitOn text
    rw [if_neg hline] at hlines
    rw [hlines, List.take_of_length_le (by omega), hbytes]
    omega

/-- The position behind a text reaches to the end of the text, whatever
follows. -/
theorem reach_after (p r : List Char) : reach (after p) (p ++ r) = byteLength p := by
  have hbytes := byteLength_take_after p r
  have hline : (after p).line - 1 ≤ (p ++ r).count '\n' := by
    rw [after_eq, List.count_append]
    exact Nat.le_add_right _ _
  rw [lineBytes_take, if_pos hline] at hbytes
  exact hbytes

theorem eq_of_byteLength_eq {p q : List Char} (h : p <+: q) (hbytes : byteLength p = byteLength q) :
    p = q := by
  obtain ⟨v, rfl⟩ := h
  cases v with
  | nil => rw [List.append_nil]
  | cons c v =>
    have hc := c.utf8Size_pos
    simp only [byteLength_append, byteLength] at hbytes
    omega

/-- Behind two beginnings of one text there are two positions. -/
theorem after_injective {text p q : List Char} (hp : p <+: text) (hq : q <+: text)
    (h : after p = after q) : p = q := by
  have hbytes : byteLength p = byteLength q := by
    obtain ⟨r, hr⟩ := hp
    obtain ⟨u, hu⟩ := hq
    rw [← reach_after p r, ← reach_after q u, hr, hu, h]
  -- one of the two is a beginning of the other
  rcases List.prefix_or_prefix_of_prefix hp hq with hle | hle
  · exact eq_of_byteLength_eq hle hbytes
  · exact (eq_of_byteLength_eq hle hbytes.symm).symm

end Position

end Phrasebook
