/-
  Phrasebook.Proofs.Parser.Token
  ────────────────────────────────
  **NAMES, NUMBERS AND LISTS KEEP THE LAWS OF READERS.**

  A name has at least one character.  A list has the laws of its items; the
  items of a loose list have to read something, those of a tight one follow
  a comma that does.
-/
import Phrasebook.Proofs.Parser.Loops

namespace Phrasebook

namespace Parser

variable {α : Type} {P : α → Prop}

/-! ## §1. Names and numbers. -/

theorem isNameRest_of_isNameStart {c : Char} (h : isNameStart c = true) :
    isNameRest c = true := by
  simp only [isNameStart, isNameRest, Char.isAlphanum, Bool.or_eq_true] at h ⊢
  rcases h with h | h
  · exact .inl (.inl h)
  · exact .inr h

theorem Reads.name : Reads 1 name fun _ => True := by
  have hreads : Reads 0 Parser.name fun _ => True :=
    bind (ahead fun _ _ _ => rfl) fun _ _ =>
      ite (fun _ => bind (takeWhile _) fun _ _ => pure trivial) fun _ => stop _
  refine ⟨hreads.suffix, ?_, hreads.steady⟩
  intro s a r h
  cases s with
  | nil => exact nomatch h
  | cons c s =>
    have hname : Parser.name (c :: s) = if isNameStart c then
        .ok (String.ofList ((c :: s).takeWhile isNameRest)) ((c :: s).dropWhile isNameRest)
        else .fail .name (c :: s) := by
      show (if isNameStart c = true then _ else _ : Parser String) (c :: s) = _
      split <;> rfl
    rw [hname] at h
    split at h
    · next hc =>
      obtain ⟨-, rfl⟩ := Outcome.ok.inj h
      -- the first character may also stand further on, so it is taken
      rw [List.dropWhile_cons_of_pos (isNameRest_of_isNameStart hc)]
      have := (List.dropWhile_suffix (l := s) isNameRest).length_le
      simp only [List.length_cons]
      exact ⟨trivial, by omega⟩
    · exact nomatch h

theorem Reads.number : Reads 0 number fun _ => True where
  suffix s := by
    unfold Parser.number
    dsimp only
    split
    · exact List.dropWhile_suffix _
    · exact List.suffix_refl s
  result {s a r} h := by
    unfold Parser.number at h
    dsimp only at h
    split at h
    · cases h
      exact ⟨trivial, (List.dropWhile_suffix _).length_le⟩
    · exact nomatch h
  steady {a c m t} t' hm h := by
    unfold Parser.number at h ⊢
    dsimp only at h ⊢
    split at h
    · next hle =>
      obtain ⟨ha, hr⟩ := Outcome.ok.inj h
      obtain ⟨hdrop, htake⟩ := span_congr t' hm.ne_nil hr
      rw [htake, if_pos hle, hdrop, ha]
    · exact nomatch h

/-! ## §2. Lists. -/

theorem safe_close (list : Enumeration) : Safe list.close.toList := by
  cases list <;> decide

theorem one_le_close (list : Enumeration) : 1 ≤ list.close.toList.length := by
  cases list <;> decide

theorem Reads.looseList (list : Enumeration) {item : Parser α} (hi : Reads 1 item P) :
    Reads 1 (looseList list item) fun as => ∀ a ∈ as, P a := by
  have hround : Reads 1 (do
      let ended ← Parser.eat list.close
      if ended then
        Pure.pure none
      else
        let a ← item
        Parser.blank
        let comma ← Parser.eat ","
        if comma then
          Parser.blank
          Pure.pure (some a)
        else
          let ends ← Parser.isAhead list.close
          if ends then Pure.pure (some a) else Parser.stop (.separator list))
      fun o => ∀ a ∈ o, P a := by
    refine eat_then (safe_close list) (one_le_close list) (pure nofun) ?_
    refine bind_left hi fun a ha => ?_
    have hsome : Reads 0 (Pure.pure (some a) : Parser (Option α)) fun o => ∀ a ∈ o, P a :=
      pure fun b hb => Option.some.inj hb ▸ ha
    refine bind blank fun _ _ => bind (eat (by decide)) fun comma _ => ite (fun _ => ?_) fun _ => ?_
    · exact bind blank fun _ _ => hsome
    · -- without a comma the list has to end here
      exact bind (isAhead (safe_close list)) fun ends _ =>
        ite (fun _ => hsome) fun _ => stop _
  exact bind blank fun _ _ => collect hround hround.advances

/-- What comes after an item of a tight list: one more item, or its end. -/
def tightRound (list : Enumeration) (item : Parser α) : Parser (Option α) := do
  blank
  let comma ← eat ","
  if comma then
    blank
    let a ← item
    pure (some a)
  else
    let ended ← eat list.close
    if ended then pure none else stop (.separator list)

theorem Reads.tightRound (list : Enumeration) {item : Parser α} (hi : Reads 0 item P) :
    Reads 1 (tightRound list item) fun o => ∀ a ∈ o, P a := by
  -- the comma is a character, so the item need not be one
  refine bind blank fun _ _ => eat_then (by decide) (by decide) ?_ ?_
  · exact bind blank fun _ _ => bind_left hi fun a ha =>
      pure fun b hb => Option.some.inj hb ▸ ha
  · exact eat_then (safe_close list) (one_le_close list) (pure nofun) (stop _)

theorem Reads.tightList (list : Enumeration) {item : Parser α} (hi : Reads 0 item P) :
    Reads 1 (tightList list item) fun as => ∀ a ∈ as, P a := by
  have hround := Reads.tightRound list hi
  refine bind blank fun _ _ =>
    eat_then (safe_close list) (one_le_close list) (pure nofun) ?_
  refine bind hi fun first hfirst =>
    bind_left (collect hround hround.advances) fun others hothers => pure fun a ha => ?_
  rcases List.mem_cons.1 ha with rfl | ha
  · exact hfirst
  · exact hothers a ha

end Parser

end Phrasebook
