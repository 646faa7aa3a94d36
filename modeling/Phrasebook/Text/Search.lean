/-
  Phrasebook.Text.Search
  ────────────────────────────────
  **FINDING A TEXT IN ANOTHER.**

      after? t s    =  some r        if  s = t ++ r
      before? t s   =  some (b, r)   if  s = b ++ r, and r is the longest
                                     suffix of s that starts with t
-/

namespace Phrasebook

/-- What follows `t` in a text that starts with it. -/
def after? : (t s : List Char) → Option (List Char)
  | [], s => some s
  | _ :: _, [] => none
  | c :: t, d :: s => if c = d then after? t s else none

/-- The text before the first place where `t` stands, and the text from
there, if there is such a place. -/
def before? (t : List Char) : (s : List Char) → Option (List Char × List Char)
  | [] => if t = [] then some ([], []) else none
  | c :: s =>
    if (after? t (c :: s)).isSome then some ([], c :: s)
    else (before? t s).map fun (b, r) => (c :: b, r)

theorem after?_eq_some_iff {t s r : List Char} : after? t s = some r ↔ s = t ++ r := by
  induction t generalizing s with
  | nil => simp [after?]
  | cons c t ih =>
    cases s with
    | nil => simp [after?]
    | cons d s =>
      by_cases h : c = d
      · simp [after?, h, ih]
      · simp [after?, h, Ne.symm h]

theorem eq_append_of_before? {t s b r : List Char} (h : before? t s = some (b, r)) :
    s = b ++ r := by
  induction s generalizing b with
  | nil =>
    unfold before? at h
    split at h <;> simp_all
  | cons c s ih =>
    unfold before? at h
    split at h
    · simp_all
    · obtain ⟨⟨b', r'⟩, hb, heq⟩ := Option.map_eq_some_iff.1 h
      simp only [Prod.mk.injEq] at heq
      obtain ⟨rfl, rfl⟩ := heq
      simp [← ih hb]

end Phrasebook
