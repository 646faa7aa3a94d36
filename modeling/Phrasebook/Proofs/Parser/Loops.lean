/-
  Phrasebook.Proofs.Parser.Loops
  ────────────────────────────────
  **LOOPS KEEP WHAT THEIR ROUNDS KEEP.**

  A loop whose rounds all read something is its first round and then the
  same loop (`collect_some`, `chain_some`): the budget is never used up.  So
  what a loop gives is what its first round and the later ones give:

      collect_eq_ok, chain_eq_ok

  By induction on the text, the laws of a round are those of the loop:

      Reads.collect, Reads.chain, Closes.collect
-/
import Phrasebook.Proofs.Parser.Laws

namespace Phrasebook

namespace Parser

variable {α β : Type}

/-! ## §1. Rounds. -/

/-- Every round that gives something reads something. -/
def Advances (next : Parser (Option α)) : Prop :=
  ∀ ⦃s a r⦄, next s = .ok (some a) r → r.length < s.length

theorem Reads.advances {next : Parser (Option α)} {Q : Option α → Prop} (hn : Reads 1 next Q) :
    Advances next := by
  intro s a r h
  have := (hn.result h).2
  omega

namespace Advances

variable {n : Nat} {p next : Parser (Option α)} {P : β → Prop}

theorem none : Advances (Pure.pure none : Parser (Option α)) :=
  fun _ _ _ h => nomatch h

theorem bind {q : Parser β} {f : β → Parser (Option α)} (hq : Reads n q P)
    (hf : ∀ b, P b → Advances (f b)) : Advances (q >>= f) := by
  intro s a r h
  obtain ⟨b, r', hqs, hfb⟩ := bind_eq_ok h
  have hlt := hf b (hq.result hqs).1 hfb
  have hle := (hq.suffix_ok hqs).length_le
  omega

theorem ite {c : Prop} [Decidable c] (hp : c → Advances p) (hq : ¬ c → Advances next) :
    Advances (if c then p else next) := by
  split
  · exact hp ‹_›
  · exact hq ‹_›

end Advances

section

variable {next : Parser (Option α)} {s r : List Char} {a : α}

theorem collectWithin_none (b : List Char) (h : next s = .ok none r) :
    collectWithin next b s = .ok [] r := by
  unfold collectWithin
  rw [bind_apply, h]
  rfl

theorem collectWithin_fail (b : List Char) {e : Expected} (h : next s = .fail e r) :
    collectWithin next b s = .fail e r := by
  unfold collectWithin
  rw [bind_apply, h]
  rfl

theorem collectWithin_some (x : Char) (b : List Char) (h : next s = .ok (some a) r) :
    collectWithin next (x :: b) s
      = (collectWithin next b r).bind fun as r => .ok (a :: as) r := by
  rw [collectWithin, bind_apply, h]
  rfl

/-- Every budget is enough that is as long as the text. -/
theorem collectWithin_budget (ha : Advances next) (b : List Char) :
    ∀ (b' s : List Char), s.length ≤ b.length → s.length ≤ b'.length →
      collectWithin next b s = collectWithin next b' s := by
  -- by induction on one budget: a round shortens the text and the budgets
  induction b with
  | nil =>
    intro b' s hb _
    cases hn : next s with
    | fail e r => rw [collectWithin_fail _ hn, collectWithin_fail _ hn]
    | ok o r =>
      cases o with
      | none => rw [collectWithin_none _ hn, collectWithin_none _ hn]
      | some a =>
        -- nothing is left to be read
        have := ha hn
        simp only [List.length_nil] at hb
        omega
  | cons x b ih =>
    intro b' s hb hb'
    cases hn : next s with
    | fail e r => rw [collectWithin_fail _ hn, collectWithin_fail _ hn]
    | ok o r =>
      cases o with
      | none => rw [collectWithin_none _ hn, collectWithin_none _ hn]
      | some a =>
        have hlt := ha hn
        cases b' with
        | nil =>
          simp only [List.length_nil] at hb'
          omega
        | cons y b' =>
          simp only [List.length_cons] at hb hb'
          rw [collectWithin_some _ _ hn, collectWithin_some _ _ hn,
              ih b' r (by omega) (by omega)]

theorem collect_none (h : next s = .ok none r) : collect next s = .ok [] r :=
  collectWithin_none s h

theorem collect_fail {e : Expected} (h : next s = .fail e r) : collect next s = .fail e r :=
  collectWithin_fail s h

/-- A loop is its first round, and then the same loop. -/
theorem collect_some (ha : Advances next) (h : next s = .ok (some a) r) :
    collect next s = (collect next r).bind fun as r => .ok (a :: as) r := by
  have hlt := ha h
  cases s with
  | nil => simp at hlt
  | cons x b =>
    simp only [List.length_cons] at hlt
    show collectWithin next (x :: b) (x :: b) = (collectWithin next r r).bind _
    rw [collectWithin_some _ _ h,
        collectWithin_budget ha b r r (by omega) (Nat.le_refl _)]

/-- A loop gives nothing if its first round has nothing, and otherwise what
that round and the later ones give. -/
theorem collect_eq_ok (ha : Advances next) {as : List α} (h : collect next s = .ok as r) :
    (next s = .ok none r ∧ as = [])
      ∨ ∃ a q later, next s = .ok (some a) q ∧ collect next q = .ok later r
        ∧ as = a :: later := by
  cases hns : next s with
  | fail e q =>
    rw [collect_fail hns] at h
    exact nomatch h
  | ok o q =>
    cases o with
    | none =>
      rw [collect_none hns] at h
      obtain ⟨rfl, rfl⟩ := Outcome.ok.inj h
      exact .inl ⟨rfl, rfl⟩
    | some a =>
      rw [collect_some ha hns] at h
      cases hlater : collect next q with
      | fail e q' =>
        rw [hlater] at h
        exact nomatch h
      | ok later r' =>
        rw [hlater] at h
        obtain ⟨rfl, rfl⟩ := Outcome.ok.inj h
        exact .inr ⟨a, q, later, rfl, hlater, rfl⟩

end

section

variable {extend : α → Parser (Option α)} {s r : List Char} {a a' : α}

theorem chainWithin_none (b : List Char) (h : extend a s = .ok none r) :
    chainWithin extend b a s = .ok a r := by
  unfold chainWithin
  rw [bind_apply, h]
  rfl

theorem chainWithin_fail (b : List Char) {e : Expected} (h : extend a s = .fail e r) :
    chainWithin extend b a s = .fail e r := by
  unfold chainWithin
  rw [bind_apply, h]
  rfl

theorem chainWithin_some (x : Char) (b : List Char) (h : extend a s = .ok (some a') r) :
    chainWithin extend (x :: b) a s = chainWithin extend b a' r := by
  rw [chainWithin, bind_apply, h]
  rfl

/-- Every budget is enough that is as long as the text. -/
theorem chainWithin_budget {P : α → Prop} (hadv : ∀ a, P a → Advances (extend a))
    (hkeep : ∀ {a a' s r}, P a → extend a s = .ok (some a') r → P a') (b : List Char) :
    ∀ (b' : List Char) (a : α) (s : List Char), P a → s.length ≤ b.length →
      s.length ≤ b'.length → chainWithin extend b a s = chainWithin extend b' a s := by
  -- as for items; the property of the value carries the progress of rounds
  induction b with
  | nil =>
    intro b' a s ha hb _
    cases hn : extend a s with
    | fail e r => rw [chainWithin_fail _ hn, chainWithin_fail _ hn]
    | ok o r =>
      cases o with
      | none => rw [chainWithin_none _ hn, chainWithin_none _ hn]
      | some a' =>
        have := hadv a ha hn
        simp only [List.length_nil] at hb
        omega
  | cons x b ih =>
    intro b' a s ha hb hb'
    cases hn : extend a s with
    | fail e r => rw [chainWithin_fail _ hn, chainWithin_fail _ hn]
    | ok o r =>
      cases o with
      | none => rw [chainWithin_none _ hn, chainWithin_none _ hn]
      | some a' =>
        have hlt := hadv a ha hn
        cases b' with
        | nil =>
          simp only [List.length_nil] at hb'
          omega
        | cons y b' =>
          simp only [List.length_cons] at hb hb'
          rw [chainWithin_some _ _ hn, chainWithin_some _ _ hn,
              ih b' a' r (hkeep ha hn) (by omega) (by omega)]

theorem chain_none (h : extend a s = .ok none r) : chain extend a s = .ok a r :=
  chainWithin_none s h

theorem chain_fail {e : Expected} (h : extend a s = .fail e r) :
    chain extend a s = .fail e r :=
  chainWithin_fail s h

/-- A chain is its first extension, and then the same chain. -/
theorem chain_some {P : α → Prop} (hadv : ∀ a, P a → Advances (extend a))
    (hkeep : ∀ {a a' s r}, P a → extend a s = .ok (some a') r → P a') (ha : P a)
    (h : extend a s = .ok (some a') r) : chain extend a s = chain extend a' r := by
  have hlt := hadv a ha h
  cases s with
  | nil => simp at hlt
  | cons x b =>
    simp only [List.length_cons] at hlt
    show chainWithin extend (x :: b) a (x :: b) = chainWithin extend r a' r
    rw [chainWithin_some _ _ h,
        chainWithin_budget hadv hkeep b r a' r (hkeep ha h) (by omega) (Nat.le_refl _)]

/-- A chain gives the value that it starts with if there is nothing to add,
and otherwise what the chain of the first extension gives. -/
theorem chain_eq_ok {P : α → Prop} (hadv : ∀ a, P a → Advances (extend a))
    (hkeep : ∀ {a a' s r}, P a → extend a s = .ok (some a') r → P a') (ha : P a)
    (h : chain extend a s = .ok a' r) :
    (extend a s = .ok none r ∧ a' = a)
      ∨ ∃ b q, extend a s = .ok (some b) q ∧ chain extend b q = .ok a' r := by
  cases hns : extend a s with
  | fail e q =>
    rw [chain_fail hns] at h
    exact nomatch h
  | ok o q =>
    cases o with
    | none =>
      rw [chain_none hns] at h
      obtain ⟨rfl, rfl⟩ := Outcome.ok.inj h
      exact .inl ⟨rfl, rfl⟩
    | some b =>
      rw [chain_some hadv hkeep ha hns] at h
      exact .inr ⟨b, q, rfl, h⟩

end

/-! ## §2. The laws of a loop. -/

namespace Reads

variable {n : Nat} {next : Parser (Option α)} {P : α → Prop}

theorem rest_bind_ok {γ : Type} (o : Outcome γ) (g : γ → β) :
    (o.bind fun x r => .ok (g x) r).rest = o.rest := by
  cases o <;> rfl

theorem collect_suffix (hn : Reads n next fun o => ∀ a ∈ o, P a) (ha : Advances next)
    (s : List Char) : (collect next s).rest <:+ s := by
  have hs := hn.suffix s
  cases hns : next s with
  | fail e r =>
    rw [hns] at hs
    rw [collect_fail hns]
    exact hs
  | ok o r =>
    rw [hns] at hs
    cases o with
    | none =>
      rw [collect_none hns]
      exact hs
    | some a =>
      have hlt := ha hns
      rw [collect_some ha hns, rest_bind_ok]
      exact (collect_suffix hn ha r).trans hs
termination_by s.length

theorem collect_result (hn : Reads n next fun o => ∀ a ∈ o, P a) (ha : Advances next)
    {s : List Char} {as : List α} {r : List Char} (h : collect next s = .ok as r) :
    (∀ a ∈ as, P a) ∧ r.length + n ≤ s.length := by
  rcases collect_eq_ok ha h with ⟨hnone, rfl⟩ | ⟨a, q, later, hsome, hlater, rfl⟩
  · exact ⟨fun a hmem => absurd hmem List.not_mem_nil, (hn.result hnone).2⟩
  · have hlt := ha hsome
    obtain ⟨hfirst, hq⟩ := hn.result hsome
    obtain ⟨hothers, hr⟩ := collect_result hn ha hlater
    refine ⟨fun b hb => ?_, by omega⟩
    rcases List.mem_cons.1 hb with rfl | hb
    · exact hfirst _ rfl
    · exact hothers b hb
termination_by s.length

theorem collect_steady (hn : Reads n next fun o => ∀ a ∈ o, P a) (ha : Advances next)
    {as : List α} {c m t : List Char} (t' : List Char) (hm : Sealed m)
    (h : collect next (c ++ (m ++ t)) = .ok as (m ++ t)) :
    collect next (c ++ (m ++ t')) = .ok as (m ++ t') := by
  rcases collect_eq_ok ha h with ⟨hnone, rfl⟩ | ⟨a, q, later, hsome, hlater, rfl⟩
  · exact collect_none (hn.steady t' hm hnone)
  · have hlt := ha hsome
    -- the later rounds end in front of the sealed text, so the first one does
    have hsuffix := collect_suffix hn ha q
    rw [hlater] at hsuffix
    obtain ⟨d, rfl, hstep⟩ := hn.steady_before t' hm hsuffix hsome
    have hlen : d.length < c.length := by
      simp only [List.length_append] at hlt
      omega
    rw [collect_some ha hstep, collect_steady hn ha t' hm hlater]
    rfl
termination_by c.length

/-- A loop over items reads what a round reads at least. -/
theorem collect (hn : Reads n next fun o => ∀ a ∈ o, P a) (ha : Advances next) :
    Reads n (collect next) fun as => ∀ a ∈ as, P a where
  suffix := collect_suffix hn ha
  result := collect_result hn ha
  steady := collect_steady hn ha

section

variable {extend : α → Parser (Option α)}

/-- Extending keeps the property that each extension asks for. -/
theorem keep (hn : ∀ a, P a → Reads n (extend a) fun o => ∀ b ∈ o, P b) {a b : α}
    {s r : List Char} (ha : P a) (h : extend a s = .ok (some b) r) : P b :=
  ((hn a ha).result h).1 b rfl

theorem chain_suffix (hn : ∀ a, P a → Reads n (extend a) fun o => ∀ b ∈ o, P b)
    (hadv : ∀ a, P a → Advances (extend a)) (a : α) (ha : P a) (s : List Char) :
    (chain extend a s).rest <:+ s := by
  have hs := (hn a ha).suffix s
  cases hns : extend a s with
  | fail e r =>
    rw [hns] at hs
    rw [chain_fail hns]
    exact hs
  | ok o r =>
    rw [hns] at hs
    cases o with
    | none =>
      rw [chain_none hns]
      exact hs
    | some b =>
      have hlt := hadv a ha hns
      rw [chain_some hadv (keep hn) ha hns]
      exact (chain_suffix hn hadv b (keep hn ha hns) r).trans hs
termination_by s.length

theorem chain_result (hn : ∀ a, P a → Reads n (extend a) fun o => ∀ b ∈ o, P b)
    (hadv : ∀ a, P a → Advances (extend a)) {a a' : α} (ha : P a) {s r : List Char}
    (h : chain extend a s = .ok a' r) : P a' ∧ r.length ≤ s.length := by
  rcases chain_eq_ok hadv (keep hn) ha h with ⟨hnone, rfl⟩ | ⟨b, q, hsome, hlater⟩
  · exact ⟨ha, ((hn _ ha).suffix_ok hnone).length_le⟩
  · have hlt := hadv a ha hsome
    obtain ⟨ha', hr⟩ := chain_result hn hadv (keep hn ha hsome) hlater
    exact ⟨ha', by omega⟩
termination_by s.length

theorem chain_steady (hn : ∀ a, P a → Reads n (extend a) fun o => ∀ b ∈ o, P b)
    (hadv : ∀ a, P a → Advances (extend a)) {a a' : α} (ha : P a) {c m t : List Char}
    (t' : List Char) (hm : Sealed m) (h : chain extend a (c ++ (m ++ t)) = .ok a' (m ++ t)) :
    chain extend a (c ++ (m ++ t')) = .ok a' (m ++ t') := by
  rcases chain_eq_ok hadv (keep hn) ha h with ⟨hnone, rfl⟩ | ⟨b, q, hsome, hlater⟩
  · exact chain_none ((hn _ ha).steady t' hm hnone)
  · have hlt := hadv a ha hsome
    have hb : P b := keep hn ha hsome
    have hsuffix := chain_suffix hn hadv b hb q
    rw [hlater] at hsuffix
    obtain ⟨d, rfl, hstep⟩ := (hn a ha).steady_before t' hm hsuffix hsome
    have hlen : d.length < c.length := by
      simp only [List.length_append] at hlt
      omega
    rw [chain_some hadv (keep hn) ha hstep]
    exact chain_steady hn hadv hb t' hm hlater
termination_by c.length

/-- A chain keeps what each of its extensions keeps. -/
theorem chain (hn : ∀ a, P a → Reads n (extend a) fun o => ∀ b ∈ o, P b)
    (hadv : ∀ a, P a → Advances (extend a)) {a : α} (ha : P a) : Reads 0 (chain extend a) P where
  suffix := chain_suffix hn hadv a ha
  result := chain_result hn hadv ha
  steady := chain_steady hn hadv ha

end

end Reads

/-! ## §3. Loops that stop behind a final character. -/

section

variable {next : Parser (Option α)} {P : α → Prop}

/-- The round that ends a loop reads a sealed text, and what follows does not
matter to it. -/
def EndsLast (next : Parser (Option α)) : Prop :=
  ∀ ⦃c t⦄, next (c ++ t) = .ok none t → Sealed c ∧ ∀ t', next (c ++ t') = .ok none t'

theorem collect_ends (hn : Reads 1 next fun o => ∀ a ∈ o, P a) (hlast : EndsLast next)
    {as : List α} {c t : List Char} (h : collect next (c ++ t) = .ok as t) :
    Sealed c ∧ ∀ t', collect next (c ++ t') = .ok as t' := by
  rcases collect_eq_ok hn.advances h with ⟨hnone, rfl⟩ | ⟨a, q, later, hsome, hlater, rfl⟩
  · obtain ⟨hc, hclosed⟩ := hlast hnone
    exact ⟨hc, fun t' => collect_none (hclosed t')⟩
  · have hlt := hn.advances hsome
    have hsuffix := Reads.collect_suffix hn hn.advances q
    rw [hlater] at hsuffix
    obtain ⟨d, rfl⟩ : t <:+ q := hsuffix
    obtain ⟨b, hb⟩ := hn.suffix_ok hsome
    rw [← List.append_assoc] at hb
    have hc : b ++ d = c := List.append_cancel_right hb
    have hlen : d.length < c.length := by
      simp only [List.length_append] at hlt
      omega
    -- the later rounds read a sealed text, so the first one is steady
    obtain ⟨hd, hclosed⟩ := collect_ends hn hlast hlater
    rw [← hc, List.append_assoc] at hsome
    rw [← hc]
    refine ⟨hd.append b, fun t' => ?_⟩
    rw [List.append_assoc, collect_some hn.advances (hn.steady t' hd hsome), hclosed t']
    rfl
termination_by c.length

theorem Closes.collect (hn : Reads 1 next fun o => ∀ a ∈ o, P a) (hlast : EndsLast next) :
    Closes 1 (collect next) fun as => ∀ a ∈ as, P a where
  toReads := .collect hn hn.advances
  closed := collect_ends hn hlast

/-- A round that a final symbol ends, and that has an item otherwise. -/
theorem EndsLast.eat {n : Nat} {symbol : String} {item : Parser (Option α)}
    (hs : Sealed symbol.toList) (hi : Reads n item fun o => o.isSome) :
    EndsLast (do
      let closed ← eat symbol
      if closed then pure none else item) := by
  intro c t h
  rw [bind_apply] at h
  rcases eat_cases symbol (c ++ t) with ⟨r, hsplit, heat⟩ | ⟨-, heat⟩
  · rw [heat] at h
    obtain ⟨-, hrt⟩ := Outcome.ok.inj h
    obtain rfl : r = t := hrt
    obtain rfl : c = symbol.toList := List.append_cancel_right hsplit
    refine ⟨hs, fun t' => ?_⟩
    rw [bind_apply, eat_append]
    rfl
  · rw [heat] at h
    exact nomatch (hi.result (s := c ++ t) h).1

end

end Parser

end Phrasebook
