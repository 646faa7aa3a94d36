/-
  Phrasebook.Proofs.Expr.Operator
  ────────────────────────────────
  **READING AN OPERATOR.**

  Operators are the one place where a reader could look past the end of an
  entry: `>=` starts with a final character.  It cannot, since `>` is an
  operator of the same level, which is read when a text ends with `>`
  (`SafeOperators`).
-/
import Phrasebook.Expr.Level
import Phrasebook.Proofs.Parser.Loops

namespace Phrasebook

open Phrasebook.Parser

variable {ω : Type}

/-- Symbols of at most two characters; where the first one is final, it is a
symbol of the same level.  So `>` stands beside `>=`. -/
def SafeOperators (ops : List (String × ω)) : Prop :=
  ∀ x ∈ ops, x.1.toList ≠ [] ∧ x.1.toList.length ≤ 2
    ∧ ((x.1.toList.head?.any isFinal) = true →
      x.1.toList.take 1 ∈ ops.map fun y => y.1.toList)

instance (ops : List (String × ω)) : Decidable (SafeOperators ops) :=
  List.decidableBAll (fun x : String × ω => x.1.toList ≠ [] ∧ x.1.toList.length ≤ 2
    ∧ ((x.1.toList.head?.any isFinal) = true →
      x.1.toList.take 1 ∈ ops.map fun y : String × ω => y.1.toList)) ops

theorem firstOperator_eq_none_iff {ops : List (String × ω)} {s : List Char} :
    firstOperator ops s = none ↔ ∀ x ∈ ops, after? x.1.toList s = none := by
  induction ops with
  | nil => simp [firstOperator]
  | cons x ops ih =>
    obtain ⟨symbol, op⟩ := x
    unfold firstOperator
    cases h : after? symbol.toList s with
    | some r => simp [h]
    | none => simp [h, ih]

theorem eq_append_of_firstOperator {ops : List (String × ω)} {s r : List Char} {op : ω}
    (h : firstOperator ops s = some (op, r)) : ∃ x ∈ ops, x.2 = op ∧ s = x.1.toList ++ r := by
  induction ops with
  | nil => exact nomatch h
  | cons x ops ih =>
    obtain ⟨symbol, op'⟩ := x
    unfold firstOperator at h
    cases hs : after? symbol.toList s with
    | some r' =>
      rw [hs] at h
      cases h
      exact ⟨_, List.mem_cons_self, rfl, after?_eq_some_iff.1 hs⟩
    | none =>
      rw [hs] at h
      obtain ⟨x, hx, hop, heq⟩ := ih h
      exact ⟨x, List.mem_cons_of_mem _ hx, hop, heq⟩

/-- A symbol that fits into a text is ahead of it whatever follows. -/
theorem after?_eq_none_of_length_le {symbol m : List Char} (hlen : symbol.length ≤ m.length)
    {t : List Char} (t' : List Char) (h : after? symbol (m ++ t) = none) :
    after? symbol (m ++ t') = none := by
  cases hs : after? symbol (m ++ t') with
  | none => rfl
  | some r =>
    have hprefix : symbol <+: m :=
      List.prefix_of_prefix_length_le ⟨r, (after?_eq_some_iff.1 hs).symm⟩
        (List.prefix_append m t') hlen
    obtain ⟨u, rfl⟩ := hprefix
    rw [after?_eq_some_iff.2 (List.append_assoc symbol u t)] at h
    exact nomatch h

/-- No operator is ahead of a sealed text, whatever follows it. -/
theorem firstOperator_none_congr {ops : List (String × ω)} (hops : SafeOperators ops)
    {m t : List Char} (t' : List Char) (hm : Sealed m) (h : firstOperator ops (m ++ t) = none) :
    firstOperator ops (m ++ t') = none := by
  rw [firstOperator_eq_none_iff] at h ⊢
  intro x hx
  obtain ⟨-, hlen, hfinal⟩ := hops x hx
  by_cases hfits : x.1.toList.length ≤ m.length
  · exact after?_eq_none_of_length_le hfits t' (h x hx)
  -- otherwise the sealed text is one character, which is an operator itself
  obtain ⟨body, c, rfl, hc⟩ := hm
  rw [List.length_append, List.length_singleton] at hfits
  obtain rfl : body = [] := List.eq_nil_of_length_eq_zero (by omega)
  rw [List.nil_append] at h ⊢
  cases hs : after? x.1.toList ([c] ++ t') with
  | none => rfl
  | some r =>
    have heq := after?_eq_some_iff.1 hs
    cases hx : x.1.toList with
    | nil => exact absurd hx (hops x ‹_›).1
    | cons d symbol =>
      rw [hx] at heq hfinal
      obtain rfl : c = d := List.head_eq_of_cons_eq heq
      obtain ⟨y, hy, hyc⟩ := List.mem_map.1 (hfinal hc)
      have hnone := h y hy
      rw [hyc, after?_eq_some_iff.2 (show [c] ++ t = (c :: symbol).take 1 ++ t from rfl)] at hnone
      exact nomatch hnone

/-- An operator in front of a sealed text is there whatever follows. -/
theorem firstOperator_some_congr {ops : List (String × ω)}
    (hops : ∀ x ∈ ops, x.1.toList ≠ [] ∧ x.1.toList.length ≤ 2) {d m t : List Char}
    (t' : List Char) (hm : Sealed m) {op : ω}
    (h : firstOperator ops (d ++ (m ++ t)) = some (op, m ++ t)) :
    firstOperator ops (d ++ (m ++ t')) = some (op, m ++ t') := by
  have hd : d ≠ [] := by
    obtain ⟨x, hx, -, heq⟩ := eq_append_of_firstOperator h
    rw [List.append_cancel_right heq]
    exact (hops x hx).1
  induction ops with
  | nil => exact nomatch h
  | cons x ops ih =>
    obtain ⟨symbol, op'⟩ := x
    unfold firstOperator at h ⊢
    cases hs : after? symbol.toList (d ++ (m ++ t)) with
    | some r =>
      rw [hs] at h
      cases h
      rw [List.append_cancel_right (after?_eq_some_iff.1 hs), after?_eq_some_iff.2 rfl]
    | none =>
      rw [hs] at h
      have hfits : symbol.toList.length ≤ (d ++ m).length := by
        have hsymbol := (hops _ List.mem_cons_self).2
        have hdlen := List.length_pos_iff.2 hd
        have hmlen := List.length_pos_iff.2 hm.ne_nil
        rw [List.length_append]
        exact Nat.le_trans hsymbol (by omega)
      rw [← List.append_assoc] at hs
      have hs' := after?_eq_none_of_length_le hfits t' hs
      rw [List.append_assoc] at hs'
      rw [hs']
      exact ih (fun y hy => hops y (List.mem_cons_of_mem _ hy)) h

/-- An operator is read with the blanks in front of it; without one, nothing
is read, not even blanks. -/
theorem operator_cases (ops : List (String × ω)) (s : List Char) :
    (∃ op r, firstOperator ops (dropBlank s) = some (op, r) ∧ operator ops s = .ok (some op) r)
      ∨ (firstOperator ops (dropBlank s) = none ∧ operator ops s = .ok none s) := by
  unfold operator
  cases h : firstOperator ops (dropBlank s) with
  | some x => exact .inl ⟨x.1, x.2, rfl, rfl⟩
  | none => exact .inr ⟨rfl, rfl⟩

theorem length_of_firstOperator {ops : List (String × ω)} {s r : List Char} {op : ω}
    (h : firstOperator ops (dropBlank s) = some (op, r)) :
    ∃ x ∈ ops, x.2 = op ∧ r.length + x.1.toList.length ≤ s.length := by
  obtain ⟨x, hx, hop, heq⟩ := eq_append_of_firstOperator h
  have hle : (dropBlank s).length ≤ s.length := (List.dropWhile_suffix _).length_le
  rw [heq, List.length_append] at hle
  exact ⟨x, hx, hop, by omega⟩

theorem operator_reads {ops : List (String × ω)} (hops : SafeOperators ops) :
    Reads 0 (operator ops) fun o => ∀ op ∈ o, op ∈ ops.map Prod.snd where
  suffix s := by
    rcases operator_cases ops s with ⟨op, r, hfirst, hread⟩ | ⟨-, hread⟩
    · rw [hread]
      obtain ⟨x, -, -, heq⟩ := eq_append_of_firstOperator hfirst
      exact List.IsSuffix.trans ⟨_, heq.symm⟩ (List.dropWhile_suffix _)
    · rw [hread]
      exact List.suffix_refl s
  result {s a r} h := by
    rcases operator_cases ops s with ⟨op, r', hfirst, hread⟩ | ⟨-, hread⟩
    · rw [hread] at h
      obtain ⟨rfl, rfl⟩ := Outcome.ok.inj h
      obtain ⟨x, hx, hop, hlen⟩ := length_of_firstOperator hfirst
      refine ⟨fun op' hop' => ?_, by omega⟩
      obtain rfl := Option.some.inj hop'
      exact List.mem_map.2 ⟨x, hx, hop⟩
    · rw [hread] at h
      obtain ⟨rfl, rfl⟩ := Outcome.ok.inj h
      exact ⟨nofun, Nat.le_refl _⟩
  steady {a c m t} t' hm h := by
    rcases operator_cases ops (c ++ (m ++ t)) with ⟨op, r, hfirst, hread⟩ | ⟨hnone, hread⟩
    · rw [hread] at h
      obtain ⟨rfl, rfl⟩ := Outcome.ok.inj h
      obtain ⟨x, -, -, heq⟩ := eq_append_of_firstOperator hfirst
      obtain ⟨d, hd, hd'⟩ := Reads.blank.steady_before t' hm ⟨_, heq.symm⟩ rfl
      have hblank : dropBlank (c ++ (m ++ t')) = d ++ (m ++ t') := (Outcome.ok.inj hd').2
      have hsymbols : ∀ x ∈ ops, x.1.toList ≠ [] ∧ x.1.toList.length ≤ 2 :=
        fun x hx => ⟨(hops x hx).1, (hops x hx).2.1⟩
      rw [hd] at hfirst
      unfold operator
      rw [hblank, firstOperator_some_congr hsymbols t' hm hfirst]
    · rw [hread] at h
      obtain ⟨rfl, hc⟩ := Outcome.ok.inj h
      obtain rfl : c = [] := List.append_left_eq_self.1 hc
      rw [List.nil_append, dropBlank_append hm] at hnone
      unfold operator
      rw [List.nil_append, dropBlank_append hm, firstOperator_none_congr hops t' hm.dropBlank hnone]

theorem operator_advances {ops : List (String × ω)} (hops : SafeOperators ops) :
    Advances (operator ops) := by
  intro s op r h
  rcases operator_cases ops s with ⟨op', r', hfirst, hread⟩ | ⟨-, hread⟩
  · rw [hread] at h
    obtain ⟨-, rfl⟩ := Outcome.ok.inj h
    obtain ⟨x, hx, -, hlen⟩ := length_of_firstOperator hfirst
    have hpos := List.length_pos_iff.2 (hops x hx).1
    omega
  · rw [hread] at h
    exact nomatch (Outcome.ok.inj h).1

end Phrasebook
