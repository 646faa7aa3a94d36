/-
  Phrasebook.Proofs.Parser.Sealed
  ────────────────────────────────
  **HOW FAR A READER LOOKS AHEAD.**

  Entries end with `>`, `)` or `/`, and bodies with `}`.  No symbol that is
  looked for, but `>=` and `/*`, has one of these characters in front of its
  last character (`Safe`), so whether a symbol is ahead is settled within a
  text that ends with one of them (`Sealed`):

      isSome_after?_eq  —  whether a symbol starts in front of the end
      before?_congr     —  where a symbol stands first
      span_congr        —  where a run of characters ends

  none of which depends on what follows the sealed text.
-/
import Phrasebook.Text.Blank
import Phrasebook.Text.Search

namespace Phrasebook

/-! ## §1. Sealed texts. -/

/-- The characters that entries and bodies end with. -/
def isFinal (c : Char) : Bool :=
  c == '>' || c == ')' || c == '/' || c == '}'

/-- Does the text end with a final character? -/
def Sealed (m : List Char) : Prop :=
  ∃ body c, m = body ++ [c] ∧ isFinal c = true

/-- A symbol without a final character in front of its last character. -/
def Safe (symbol : List Char) : Prop :=
  ∀ c ∈ symbol.dropLast, isFinal c = false

instance (symbol : List Char) : Decidable (Safe symbol) :=
  List.decidableBAll (fun c => isFinal c = false) symbol.dropLast

theorem Sealed.ne_nil {m : List Char} (h : Sealed m) : m ≠ [] := by
  obtain ⟨body, c, rfl, _⟩ := h
  simp

theorem Sealed.append {m : List Char} (h : Sealed m) (s : List Char) : Sealed (s ++ m) := by
  obtain ⟨body, c, rfl, hc⟩ := h
  exact ⟨s ++ body, c, by simp, hc⟩

/-- A sealed text is no proper beginning of a safe symbol. -/
theorem Sealed.eq_of_append {symbol m r : List Char} (hs : Safe symbol) (hm : Sealed m)
    (h : symbol = m ++ r) : r = [] := by
  obtain ⟨body, c, rfl, hc⟩ := hm
  cases r with
  | nil => rfl
  | cons x r =>
    have hmem : c ∈ symbol.dropLast := by
      rw [h, List.dropLast_append_of_ne_nil (by simp)]
      simp
    have := hs c hmem
    rw [hc] at this
    contradiction

/-- Blanks are not final, so a sealed text has more than blanks. -/
theorem Sealed.dropBlank {m : List Char} (h : Sealed m) : Sealed (dropBlank m) := by
  obtain ⟨body, c, rfl, hc⟩ := h
  have hnot : isBlank c = false := by
    simp only [isFinal, Bool.or_eq_true, beq_iff_eq] at hc
    rcases hc with ((rfl | rfl) | rfl) | rfl <;> decide
  -- the blanks end in front of the final character at the latest
  unfold Phrasebook.dropBlank
  rw [List.dropWhile_append]
  split
  · exact ⟨[], c, by simp [List.dropWhile, hnot], hc⟩
  · exact ⟨_, c, rfl, hc⟩

/-! ## §2. What does not depend on the text behind. -/

theorem dropBlank_append {m : List Char} (hm : Sealed m) (t : List Char) :
    dropBlank (m ++ t) = dropBlank m ++ t := by
  have hne : m.dropWhile isBlank ≠ [] := hm.dropBlank.ne_nil
  unfold dropBlank
  rw [List.dropWhile_append, if_neg (by simpa using hne)]

/-- Whether a safe symbol is ahead does not depend on what follows a sealed
text. -/
theorem isSome_after?_congr {symbol m : List Char} (hs : Safe symbol) (hm : Sealed m)
    (t t' : List Char) (h : (after? symbol (m ++ t)).isSome) :
    (after? symbol (m ++ t')).isSome := by
  obtain ⟨r, hr⟩ := Option.isSome_iff_exists.1 h
  rcases List.append_eq_append_iff.1 (after?_eq_some_iff.1 hr) with ⟨u, hsym, _⟩ | ⟨u, hmu, _⟩
  · -- the symbol reaches the end of the sealed text, so it ends there
    have hu : u = [] := hm.eq_of_append hs hsym
    subst hu
    rw [List.append_nil] at hsym
    rw [after?_eq_some_iff.2 (show m ++ t' = symbol ++ t' by rw [hsym])]
    rfl
  · -- the symbol ends within the sealed text
    rw [after?_eq_some_iff.2 (show m ++ t' = symbol ++ (u ++ t') by rw [hmu, List.append_assoc])]
    rfl

theorem isSome_after?_eq {symbol m : List Char} (hs : Safe symbol) (hm : Sealed m)
    (t t' : List Char) :
    (after? symbol (m ++ t)).isSome = (after? symbol (m ++ t')).isSome :=
  Bool.eq_iff_iff.2 ⟨isSome_after?_congr hs hm t t', isSome_after?_congr hs hm t' t⟩

theorem after?_eq_none_congr {symbol m : List Char} (hs : Safe symbol) (hm : Sealed m)
    (t t' : List Char) (h : after? symbol (m ++ t) = none) : after? symbol (m ++ t') = none := by
  have := isSome_after?_eq hs hm t' t
  rw [h] at this
  simpa using this

/-- A text of which nothing is dropped has a first character that fails the
test. -/
theorem head_of_dropWhile_eq {test : Char → Bool} {x : Char} {s : List Char}
    (h : (x :: s).dropWhile test = x :: s) : test x = false := by
  cases hx : test x with
  | false => rfl
  | true =>
    rw [List.dropWhile_cons_of_pos hx] at h
    have hle := (List.dropWhile_suffix (l := s) test).length_le
    rw [h] at hle
    simp only [List.length_cons] at hle
    omega

/-- A run of characters that ends in front of a text does so by its first
character. -/
theorem span_congr {test : Char → Bool} {c m t : List Char} (t' : List Char) (hm : m ≠ [])
    (h : (c ++ (m ++ t)).dropWhile test = m ++ t) :
    (c ++ (m ++ t')).dropWhile test = m ++ t'
      ∧ (c ++ (m ++ t')).takeWhile test = (c ++ (m ++ t)).takeWhile test := by
  have htake : (c ++ (m ++ t)).takeWhile test = c := by
    have hsplit := List.takeWhile_append_dropWhile (p := test) (l := c ++ (m ++ t))
    rw [h] at hsplit
    exact List.append_cancel_right hsplit
  have hall : ∀ x ∈ c, test x = true := by
    intro x hx
    rw [← htake] at hx
    exact List.all_eq_true.1 List.all_takeWhile x hx
  obtain ⟨x, m, rfl⟩ := List.exists_cons_of_ne_nil hm
  rw [List.dropWhile_append_of_pos hall] at h
  have hx : test x = false := head_of_dropWhile_eq h
  constructor
  · rw [List.dropWhile_append_of_pos hall, List.cons_append,
        List.dropWhile_cons_of_neg (by simp [hx])]
  · rw [htake, List.takeWhile_append_of_pos hall, List.cons_append,
        List.takeWhile_cons_of_neg (by simp [hx]), List.append_nil]

theorem head?_congr {c m : List Char} (t t' : List Char) (hm : m ≠ []) :
    (c ++ (m ++ t)).head? = (c ++ (m ++ t')).head? := by
  cases c with
  | nil =>
    obtain ⟨x, m, rfl⟩ := List.exists_cons_of_ne_nil hm
    rfl
  | cons x c => rfl

/-- The first place of a safe symbol does not depend on what follows a sealed
text that the place is in. -/
theorem before?_congr {symbol m t : List Char} (hs : Safe symbol) (hm : Sealed m)
    (t' : List Char) {c b : List Char} (h : before? symbol (c ++ (m ++ t)) = some (b, m ++ t)) :
    before? symbol (c ++ (m ++ t')) = some (b, m ++ t') := by
  obtain rfl : c = b := List.append_cancel_right (eq_append_of_before? h)
  -- by induction on the text in front of the symbol
  induction c with
  | nil =>
    obtain ⟨x, m', hx⟩ := List.exists_cons_of_ne_nil hm.ne_nil
    have hsome : (after? symbol (m ++ t)).isSome := by
      rw [hx] at h ⊢
      rw [List.nil_append, List.cons_append, before?] at h
      split at h
      · assumption
      · obtain ⟨⟨b, r⟩, _, heq⟩ := Option.map_eq_some_iff.1 h
        exact nomatch heq
    have hsome' := isSome_after?_congr hs hm t t' hsome
    rw [hx, List.cons_append] at hsome' ⊢
    rw [List.nil_append, before?, if_pos hsome']
  | cons x c ih =>
    rw [List.cons_append, before?] at h
    split at h
    · exact nomatch h
    · next hnone =>
      obtain ⟨⟨b, r⟩, hb, heq⟩ := Option.map_eq_some_iff.1 h
      cases heq
      -- the symbol does not start here, for what follows here is sealed too
      have hnone' : ¬ (after? symbol (x :: (c ++ (m ++ t')))).isSome := by
        have heq := isSome_after?_eq hs (hm.append (x :: c)) t t'
        simp only [List.cons_append, List.append_assoc] at heq
        rwa [← heq]
      rw [List.cons_append, before?, if_neg hnone', ih hb]
      rfl

end Phrasebook
