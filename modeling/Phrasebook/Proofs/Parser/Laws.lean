/-
  Phrasebook.Proofs.Parser.Laws
  ────────────────────────────────
  **WHAT EVERY READER KEEPS.**

  `Reads least p P` gathers the laws that all readers of the grammar keep:

      suffix  —  what is left is the end of the text, also after a failure
      result  —  the value has the property `P`, and at least `least`
                 characters were read
      steady  —  a text behind a sealed one that is left unread changes
                 nothing

  `Closes least p P` adds the law of readers that stop right behind a final
  character: what follows does not matter at all.

  Both are closed under everything that readers are built from; loops are in
  Phrasebook.Proofs.Parser.Loops.
-/
import Phrasebook.Parser.Token
import Phrasebook.Proofs.Parser.Sealed

namespace Phrasebook

/-! ## §1. The laws of a reader. -/

namespace Parser

variable {α β : Type}

/-- What has been read goes to the next reader. -/
theorem bind_of_ok {p : Parser α} {s r : List Char} {a : α} (h : p s = .ok a r)
    (f : α → Parser β) : (p >>= f) s = f a r := by
  rw [bind_apply, h]
  rfl

theorem map_of_ok (f : α → β) {p : Parser α} {s r : List Char} {a : α}
    (h : p s = .ok a r) : (f <$> p) s = .ok (f a) r := by
  show (p s).bind _ = _
  rw [h]
  rfl

/-- What two readers have read, one after the other. -/
theorem bind_eq_ok {p : Parser α} {f : α → Parser β} {s r : List Char} {b : β}
    (h : (p >>= f) s = .ok b r) : ∃ a q, p s = .ok a q ∧ f a q = .ok b r := by
  rw [bind_apply] at h
  cases hps : p s with
  | fail e q =>
    rw [hps] at h
    exact nomatch h
  | ok a q =>
    rw [hps] at h
    exact ⟨a, q, rfl, h⟩

theorem exactly_eq_ok {symbol : String} {s r : List Char} {u : Unit}
    (h : exactly symbol s = .ok u r) : s = symbol.toList ++ r := by
  unfold exactly at h
  split at h
  · next r' hr =>
    cases h
    exact after?_eq_some_iff.1 hr
  · exact nomatch h

theorem exactly_append (symbol : String) (r : List Char) :
    exactly symbol (symbol.toList ++ r) = .ok () r := by
  unfold exactly
  rw [after?_eq_some_iff.2 rfl]

/-- A symbol is read where it is ahead, and nothing is read elsewhere. -/
theorem eat_cases (symbol : String) (s : List Char) :
    (∃ r, s = symbol.toList ++ r ∧ eat symbol s = .ok true r)
      ∨ (after? symbol.toList s = none ∧ eat symbol s = .ok false s) := by
  unfold eat
  cases h : after? symbol.toList s with
  | some r => exact .inl ⟨r, after?_eq_some_iff.1 h, rfl⟩
  | none => exact .inr ⟨rfl, rfl⟩

theorem eat_append (symbol : String) (r : List Char) :
    eat symbol (symbol.toList ++ r) = .ok true r := by
  unfold eat
  rw [after?_eq_some_iff.2 rfl]

theorem eat_of_none {symbol : String} {s : List Char} (h : after? symbol.toList s = none) :
    eat symbol s = .ok false s := by
  unfold eat
  rw [h]

/-- A symbol of one character is read where that is the next one. -/
theorem eat_single {symbol : String} {d : Char} (hsymbol : symbol.toList = [d]) (c : Char)
    (s : List Char) :
    eat symbol (c :: s) = if d = c then .ok true s else .ok false (c :: s) := by
  have hafter : after? symbol.toList (c :: s) = if d = c then some s else none := by
    rw [hsymbol]
    rfl
  unfold eat
  rw [hafter]
  by_cases h : d = c
  · rw [if_pos h, if_pos h]
  · rw [if_neg h, if_neg h]

theorem upTo_eq_ok {symbol : String} {s b r : List Char} (h : upTo symbol s = .ok b r) :
    s = b ++ r := by
  unfold upTo at h
  split at h
  · next b' r' hr =>
    cases h
    exact eq_append_of_before? hr
  · exact nomatch h

/-- The laws of a reader: it puts nothing back, reads at least `least`
characters and gives a value with the property `P`, and does not look past
the end of a sealed text that it leaves unread. -/
structure Reads (least : Nat) (p : Parser α) (P : α → Prop) : Prop where
  suffix : ∀ s, (p s).rest <:+ s
  result : ∀ {s a r}, p s = .ok a r → P a ∧ r.length + least ≤ s.length
  steady : ∀ {a c m t} t', Sealed m → p (c ++ (m ++ t)) = .ok a (m ++ t) →
    p (c ++ (m ++ t')) = .ok a (m ++ t')

namespace Reads

variable {n k : Nat} {p : Parser α} {f : α → Parser β} {P : α → Prop} {Q : β → Prop}

theorem suffix_ok (h : Reads n p P) {s : List Char} {a : α} {r : List Char}
    (hp : p s = .ok a r) : r <:+ s := by
  have := h.suffix s
  rwa [hp] at this

/-- The same reader, of which less is said. -/
theorem mono (h : Reads n p P) {P' : α → Prop} (hP : ∀ a, P a → P' a) (hk : k ≤ n) :
    Reads k p P' where
  suffix := h.suffix
  result hp := ⟨hP _ (h.result hp).1, by have := (h.result hp).2; omega⟩
  steady := h.steady

theorem atLeast (h : Reads n p P) (hk : k ≤ n) : Reads k p P :=
  h.mono (fun _ h => h) hk

theorem pure {a : α} (h : P a) : Reads 0 (pure a : Parser α) P where
  suffix s := List.suffix_refl s
  result hp := by
    cases hp
    exact ⟨h, Nat.le_refl _⟩
  steady t' _ hp := by
    obtain ⟨rfl, hc⟩ := Outcome.ok.inj hp
    rw [List.append_left_eq_self.1 hc]
    rfl

theorem stop (e : Expected) : Reads n (stop e : Parser α) P where
  suffix s := List.suffix_refl s
  result hp := nomatch hp
  steady _ _ hp := nomatch hp

/-- A reader that stops in front of a sealed text or earlier stops at the
same place whatever follows the sealed text. -/
theorem steady_before (hp : Reads n p P) {a : α} {c m t q : List Char} (t' : List Char)
    (hm : Sealed m) (hq : m ++ t <:+ q) (h : p (c ++ (m ++ t)) = .ok a q) :
    ∃ d, q = d ++ (m ++ t) ∧ p (c ++ (m ++ t')) = .ok a (d ++ (m ++ t')) := by
  obtain ⟨d, rfl⟩ := hq
  obtain ⟨b, hb⟩ := hp.suffix_ok h
  rw [← List.append_assoc] at hb
  obtain rfl : b ++ d = c := List.append_cancel_right hb
  -- what is left in front of the sealed text makes a longer sealed text
  have hstep : p (b ++ ((d ++ m) ++ t')) = .ok a ((d ++ m) ++ t') := by
    apply hp.steady (t := t) t' (hm.append d)
    simpa only [List.append_assoc] using h
  refine ⟨d, rfl, ?_⟩
  simpa only [List.append_assoc] using hstep

theorem bind_steady (hp : Reads n p P) (hf : ∀ a, P a → Reads k (f a) Q) {b : β}
    {c m t : List Char} (t' : List Char) (hm : Sealed m)
    (h : (p >>= f) (c ++ (m ++ t)) = .ok b (m ++ t)) :
    (p >>= f) (c ++ (m ++ t')) = .ok b (m ++ t') := by
  obtain ⟨a, q, hps, hfa⟩ := bind_eq_ok h
  have ha : P a := (hp.result hps).1
  obtain ⟨d, rfl, hstep⟩ := hp.steady_before t' hm ((hf a ha).suffix_ok hfa) hps
  rw [bind_apply, hstep]
  exact (hf a ha).steady t' hm hfa

theorem bind_suffix (hp : Reads n p P) (hf : ∀ a, P a → Reads k (f a) Q) (s : List Char) :
    ((p >>= f) s).rest <:+ s := by
  rw [bind_apply]
  have hs := hp.suffix s
  cases hps : p s with
  | fail e r =>
    rw [hps] at hs
    exact hs
  | ok a q =>
    rw [hps] at hs
    exact ((hf a (hp.result hps).1).suffix q).trans hs

theorem bind_result (hp : Reads n p P) (hf : ∀ a, P a → Reads k (f a) Q) {s : List Char}
    {b : β} {r : List Char} (h : (p >>= f) s = .ok b r) :
    Q b ∧ r.length + (n + k) ≤ s.length := by
  obtain ⟨a, q, hps, hfa⟩ := bind_eq_ok h
  obtain ⟨ha, hq⟩ := hp.result hps
  obtain ⟨hb, hr⟩ := (hf a ha).result hfa
  exact ⟨hb, by omega⟩

theorem bind_add (hp : Reads n p P) (hf : ∀ a, P a → Reads k (f a) Q) :
    Reads (n + k) (p >>= f) Q where
  suffix := bind_suffix hp hf
  result := bind_result hp hf
  steady := bind_steady hp hf

/-- One reader after another one that may read nothing. -/
theorem bind (hp : Reads n p P) (hf : ∀ a, P a → Reads k (f a) Q) : Reads k (p >>= f) Q :=
  (bind_add hp hf).atLeast (by omega)

/-- One reader, and then another one that may read nothing. -/
theorem bind_left (hp : Reads n p P) (hf : ∀ a, P a → Reads 0 (f a) Q) :
    Reads n (p >>= f) Q :=
  bind_add hp hf

theorem map {g : α → β} (hp : Reads n p P) (hg : ∀ a, P a → Q (g a)) : Reads n (g <$> p) Q :=
  bind_left hp fun a ha => pure (hg a ha)

theorem ite {c : Prop} [Decidable c] {q : Parser α} (hp : c → Reads n p P)
    (hq : ¬ c → Reads n q P) : Reads n (if c then p else q) P := by
  split
  · exact hp ‹_›
  · exact hq ‹_›

end Reads

/-! ## §2. Single steps. -/

namespace Reads

variable {n k : Nat} {P : α → Prop}

/-- A look at the next character is not a look past a sealed text. -/
theorem ahead {g : List Char → α} (hg : ∀ x s t, g (x :: s) = g (x :: t)) :
    Reads 0 (ahead g) fun _ => True where
  suffix s := List.suffix_refl s
  result hp := by
    cases hp
    exact ⟨trivial, Nat.le_refl _⟩
  steady {a c m t} t' hm hp := by
    obtain ⟨ha, hc⟩ := Outcome.ok.inj hp
    rw [List.append_left_eq_self.1 hc] at ha ⊢
    cases hmc : m with
    | nil => exact absurd hmc hm.ne_nil
    | cons x m =>
      rw [hmc] at ha
      show Outcome.ok (g (x :: (m ++ t'))) _ = _
      rw [← ha]
      exact congrArg (Outcome.ok · _) (hg x _ _)

theorem isAhead {symbol : String} (hs : Safe symbol.toList) :
    Reads 0 (isAhead symbol) fun _ => True where
  suffix s := List.suffix_refl s
  result hp := by
    cases hp
    exact ⟨trivial, Nat.le_refl _⟩
  steady {a c m t} t' hm hp := by
    obtain ⟨ha, hc⟩ := Outcome.ok.inj hp
    rw [List.append_left_eq_self.1 hc] at ha ⊢
    show Outcome.ok (after? symbol.toList (m ++ t')).isSome _ = _
    rw [isSome_after?_eq hs hm t' t]
    exact congrArg (Outcome.ok · _) ha

theorem exactly (symbol : String) :
    Reads symbol.toList.length (exactly symbol) fun _ => True where
  suffix s := by
    unfold Parser.exactly
    split
    · next r hr =>
      rw [after?_eq_some_iff.1 hr]
      exact List.suffix_append _ _
    · exact List.suffix_refl s
  result {s a r} hp := by
    rw [exactly_eq_ok hp, List.length_append]
    exact ⟨trivial, by omega⟩
  steady {a c m t} t' _ hp := by
    rw [List.append_cancel_right (exactly_eq_ok hp)]
    exact exactly_append symbol _

/-- A symbol that is read if it is ahead, and what comes then. -/
theorem eat {symbol : String} (hs : Safe symbol.toList) :
    Reads 0 (eat symbol) fun _ => True where
  suffix s := by
    rcases eat_cases symbol s with ⟨r, hsplit, heat⟩ | ⟨-, heat⟩
    · rw [heat, hsplit]
      exact List.suffix_append _ _
    · rw [heat]
      exact List.suffix_refl s
  result {s a r} hp := by
    rcases eat_cases symbol s with ⟨r', hsplit, heat⟩ | ⟨-, heat⟩
    · rw [heat] at hp
      obtain ⟨-, rfl⟩ := Outcome.ok.inj hp
      rw [hsplit, List.length_append]
      exact ⟨trivial, by omega⟩
    · rw [heat] at hp
      obtain ⟨-, rfl⟩ := Outcome.ok.inj hp
      exact ⟨trivial, Nat.le_refl _⟩
  steady {a c m t} t' hm hp := by
    rcases eat_cases symbol (c ++ (m ++ t)) with ⟨r, hsplit, heat⟩ | ⟨hnone, heat⟩
    · rw [heat] at hp
      obtain ⟨rfl, rfl⟩ := Outcome.ok.inj hp
      rw [List.append_cancel_right hsplit]
      exact eat_append symbol _
    · rw [heat] at hp
      obtain ⟨rfl, hc⟩ := Outcome.ok.inj hp
      obtain rfl : c = [] := List.append_left_eq_self.1 hc
      -- the symbol is not ahead of the sealed text, whatever follows it
      exact eat_of_none (after?_eq_none_congr hs hm t t' hnone)

/-- A choice by a symbol: what is read behind it has the symbol in front. -/
theorem eat_then {symbol : String} {p q : Parser α} (hs : Safe symbol.toList)
    (hk : k ≤ symbol.toList.length) (hp : Reads 0 p P) (hq : Reads k q P) :
    Reads k (do
      let b ← Parser.eat symbol
      if b then p else q) P where
  suffix := bind_suffix (eat hs) fun b _ =>
    ite (fun _ => hp) fun _ => hq.atLeast (Nat.zero_le _)
  steady := bind_steady (eat hs) fun b _ =>
    ite (fun _ => hp) fun _ => hq.atLeast (Nat.zero_le _)
  result {s a r} h := by
    rw [bind_apply] at h
    rcases eat_cases symbol s with ⟨r', hsplit, heat⟩ | ⟨-, heat⟩
    · rw [heat] at h
      -- the symbol alone has as many characters as are asked for
      obtain ⟨ha, hlen⟩ := hp.result (s := r') h
      rw [hsplit, List.length_append]
      exact ⟨ha, by omega⟩
    · rw [heat] at h
      exact hq.result (s := s) h

/-- The characters up to the first one that fails a test. -/
theorem takeWhile (test : Char → Bool) : Reads 0 (takeWhile test) fun _ => True where
  suffix s := List.dropWhile_suffix _
  result {s a r} hp := by
    cases hp
    exact ⟨trivial, (List.dropWhile_suffix _).length_le⟩
  steady {a c m t} t' hm hp := by
    obtain ⟨ha, hr⟩ := Outcome.ok.inj hp
    obtain ⟨hdrop, htake⟩ := span_congr t' hm.ne_nil hr
    show Outcome.ok _ _ = _
    rw [hdrop, htake, ha]

theorem blank : Reads 0 blank fun _ => True where
  suffix s := List.dropWhile_suffix _
  result {s a r} hp := by
    cases hp
    exact ⟨trivial, (List.dropWhile_suffix _).length_le⟩
  steady {a c m t} t' hm hp := by
    obtain ⟨-, hr⟩ := Outcome.ok.inj hp
    exact congrArg (Outcome.ok ()) (span_congr t' hm.ne_nil hr).1

theorem someBlank : Reads 0 someBlank fun _ => True where
  suffix s := List.dropWhile_suffix _
  result {s a r} hp := by
    cases hp
    exact ⟨trivial, (List.dropWhile_suffix _).length_le⟩
  steady {a c m t} t' hm hp := by
    obtain ⟨ha, hr⟩ := Outcome.ok.inj hp
    show Outcome.ok (((c ++ (m ++ t')).head?.map isBlank).getD false) (dropBlank _) = _
    rw [head?_congr t' t hm.ne_nil, ha]
    exact congrArg (Outcome.ok a) (span_congr t' hm.ne_nil hr).1

/-- The text before the first place of a symbol; a symbol that stands across
the end of a sealed text has a final character inside. -/
theorem upTo {symbol : String} (hs : Safe symbol.toList) :
    Reads 0 (upTo symbol) fun _ => True where
  suffix s := by
    unfold Parser.upTo
    split
    · next b r hr =>
      rw [eq_append_of_before? hr]
      exact List.suffix_append _ _
    · exact List.suffix_refl s
  result {s a r} hp := by
    rw [upTo_eq_ok hp, List.length_append]
    exact ⟨trivial, by omega⟩
  steady {a c m t} t' hm hp := by
    unfold Parser.upTo at hp ⊢
    split at hp
    · next b r hr =>
      cases hp
      rw [before?_congr hs hm t' hr]
    · exact nomatch hp

end Reads

/-! ## §3. Readers that stop behind a final character. -/

/-- The laws of such a reader: what it reads is sealed, and what follows does
not matter at all. -/
structure Closes (least : Nat) (p : Parser α) (P : α → Prop) : Prop extends
    Reads least p P where
  closed : ∀ {a c t}, p (c ++ t) = .ok a t → Sealed c ∧ ∀ t', p (c ++ t') = .ok a t'

namespace Closes

variable {n k : Nat} {p : Parser α} {f : α → Parser β} {P : α → Prop} {Q : β → Prop}

theorem exactly {symbol : String} (hs : Sealed symbol.toList) :
    Closes symbol.toList.length (exactly symbol) fun _ => True where
  toReads := .exactly symbol
  closed {a c t} h := by
    rw [List.append_cancel_right (exactly_eq_ok h)]
    exact ⟨hs, exactly_append symbol⟩

theorem stop (e : Expected) : Closes n (stop e : Parser α) P where
  toReads := .stop e
  closed h := nomatch h

/-- A reader with such a reader behind it. -/
theorem bind (hp : Reads n p P) (hf : ∀ a, P a → Closes k (f a) Q) : Closes k (p >>= f) Q where
  toReads := .bind hp fun a ha => (hf a ha).toReads
  closed {b c t} h := by
    obtain ⟨a, q, hps, hfa⟩ := bind_eq_ok h
    have ha : P a := (hp.result hps).1
    obtain ⟨d, rfl⟩ := (hf a ha).suffix_ok hfa
    obtain ⟨hd, hclosed⟩ := (hf a ha).closed hfa
    obtain ⟨c', hc'⟩ := hp.suffix_ok hps
    rw [← List.append_assoc] at hc'
    obtain rfl : c' ++ d = c := List.append_cancel_right hc'
    -- what comes second reads a sealed text, so what comes first is steady
    refine ⟨hd.append c', fun t' => ?_⟩
    rw [List.append_assoc] at hps ⊢
    rw [bind_apply, hp.steady t' hd hps]
    exact hclosed t'

theorem map {g : α → β} (hp : Closes n p P) (hg : ∀ a, P a → Q (g a)) : Closes n (g <$> p) Q where
  toReads := hp.toReads.map hg
  closed {b c t} h := by
    have hmap : ∀ s, (g <$> p) s = (p >>= fun a => Pure.pure (g a)) s := fun _ => rfl
    rw [hmap] at h
    obtain ⟨a, q, hps, hpure⟩ := bind_eq_ok h
    obtain ⟨rfl, rfl⟩ := Outcome.ok.inj hpure
    obtain ⟨hc, hclosed⟩ := hp.closed hps
    refine ⟨hc, fun t' => ?_⟩
    rw [hmap, bind_apply, hclosed t']
    rfl

theorem ite {c : Prop} [Decidable c] {q : Parser α} (hp : c → Closes n p P)
    (hq : ¬ c → Closes n q P) : Closes n (if c then p else q) P := by
  split
  · exact hp ‹_›
  · exact hq ‹_›

/-- A final symbol ends a reader, or another such reader does. -/
theorem eat_then {symbol : String} {a : α} (hsafe : Safe symbol.toList)
    (hs : Sealed symbol.toList) (hk : n ≤ symbol.toList.length) (ha : P a)
    (hp : Closes n p P) :
    Closes n (do
      let b ← eat symbol
      if b then Pure.pure a else p) P where
  toReads := .eat_then hsafe hk (.pure ha) hp.toReads
  closed {a' c t} h := by
    rw [bind_apply] at h
    rcases eat_cases symbol (c ++ t) with ⟨r, hsplit, heat⟩ | ⟨hnone, heat⟩
    · rw [heat] at h
      obtain ⟨rfl, hrt⟩ := Outcome.ok.inj h
      obtain rfl : r = t := hrt
      obtain rfl : c = symbol.toList := List.append_cancel_right hsplit
      refine ⟨hs, fun t' => ?_⟩
      rw [bind_apply, eat_append]
      rfl
    · rw [heat] at h
      obtain ⟨hc, hclosed⟩ := hp.closed (show p (c ++ t) = .ok a' t from h)
      refine ⟨hc, fun t' => ?_⟩
      -- the text is sealed, so the symbol is not ahead of it either way
      rw [bind_apply, eat_of_none (after?_eq_none_congr hsafe hc t t' hnone)]
      exact hclosed t'

end Closes

end Parser

end Phrasebook
