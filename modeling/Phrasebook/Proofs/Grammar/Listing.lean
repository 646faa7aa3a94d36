/-
  Phrasebook.Proofs.Grammar.Listing
  ────────────────────────────────
  **ARRAYS AND HASHES, AS WRITTEN.**

  An array or a hash that has been read was written item by item, between
  brackets, with commas and blanks in between; and its tree is built from
  these items in the order in which they stand in the text:

      Listed               —  a list with its commas and its end
      ElementText, ItemText
                           —  an element, and an item, with or without a star
      ArrayText, HashText  —  the whole literal
      literal_array, literal_hash
                           —  what has been read is written so
-/
import Phrasebook.Proofs.Expr.Reader

namespace Phrasebook

open Phrasebook.Parser

/-! ## §1. Lists. -/

/-- A symbol of one character is eaten where that is the next one. -/
theorem eat_head_cases (symbol : String) {c : Char} (hsymbol : symbol.toList = [c])
    (s : List Char) :
    (∃ t, s = c :: t ∧ eat symbol s = .ok true t)
      ∨ s.head? ≠ some c ∧ eat symbol s = .ok false s := by
  rcases eat_cases symbol s with ⟨t, hs, heat⟩ | ⟨hnone, heat⟩
  · rw [hsymbol] at hs
    exact .inl ⟨t, hs, heat⟩
  · refine .inr ⟨fun hc => ?_, heat⟩
    obtain ⟨t, rfl⟩ := List.head?_eq_some_iff.1 hc
    rw [hsymbol, after?_eq_some_iff.2 (show c :: t = [c] ++ t from rfl)] at hnone
    exact nomatch hnone

section

variable {α : Type}

/-- A text that starts with the items of a list, up to its end, and what is
left of it.  A comma separates two items, and may stand behind the last one. -/
inductive Listed (close : Char) (Item : List Char → α → List Char → Prop) :
    List Char → List α → List Char → Prop where
  | ended (r : List Char) : Listed close Item (close :: r) [] r
  | last {s q r : List Char} {a : α} (hs : s.head? ≠ some close) (ha : Item s a q)
      (hend : dropBlank q = close :: r) : Listed close Item s [a] r
  | comma {s q t r : List Char} {a : α} {as : List α} (hs : s.head? ≠ some close)
      (ha : Item s a q) (hcomma : dropBlank q = ',' :: t)
      (later : Listed close Item (dropBlank t) as r) : Listed close Item s (a :: as) r

namespace Listed

variable {close : Char} {Item Item' : List Char → α → List Char → Prop} {s r r' : List Char}
  {as bs : List α}

theorem mono (h : ∀ s a q, Item s a q → Item' s a q) (hlist : Listed close Item s as r) :
    Listed close Item' s as r := by
  induction hlist with
  | ended r => exact .ended r
  | last hs ha hend => exact .last hs (h _ _ _ ha) hend
  | comma hs ha hcomma _ ih => exact .comma hs (h _ _ _ ha) hcomma ih

/-- A text starts with one list at most, if that is so of its items. -/
theorem unique (hclose : close ≠ ',')
    (hitem : ∀ s a b q q', Item s a q → Item s b q' → a = b ∧ q = q')
    (hlist : Listed close Item s as r) (hlist' : Listed close Item s bs r') :
    as = bs ∧ r = r' := by
  induction hlist generalizing bs r' with
  | ended r =>
    cases hlist' with
    | ended => exact ⟨rfl, rfl⟩
    | last hs _ _ | comma hs _ _ _ => exact absurd rfl hs
  | last hs ha hend =>
    cases hlist' with
    | ended => exact absurd rfl hs
    | last _ ha' hend' =>
      obtain ⟨rfl, rfl⟩ := hitem _ _ _ _ _ ha ha'
      exact ⟨rfl, (List.cons.inj (hend.symm.trans hend')).2⟩
    | comma _ ha' hcomma _ =>
      -- the same item cannot be followed by the end and by a comma
      obtain ⟨rfl, rfl⟩ := hitem _ _ _ _ _ ha ha'
      exact absurd (List.cons.inj (hend.symm.trans hcomma)).1 hclose
  | comma hs ha hcomma _ ih =>
    cases hlist' with
    | ended => exact absurd rfl hs
    | last _ ha' hend' =>
      obtain ⟨rfl, rfl⟩ := hitem _ _ _ _ _ ha ha'
      exact absurd (List.cons.inj (hend'.symm.trans hcomma)).1 hclose
    | comma _ ha' hcomma' later' =>
      obtain ⟨rfl, rfl⟩ := hitem _ _ _ _ _ ha ha'
      obtain rfl := (List.cons.inj (hcomma.symm.trans hcomma')).2
      obtain ⟨rfl, rfl⟩ := ih later'
      exact ⟨rfl, rfl⟩

end Listed

/-- One round of the loop that reads a list. -/
def looseRound (list : Enumeration) (item : Parser α) : Parser (Option α) := do
  let ended ← eat list.close
  if ended then
    pure none
  else
    let a ← item
    blank
    let comma ← eat ","
    if comma then
      blank
      pure (some a)
    else
      let ends ← isAhead list.close
      if ends then pure (some a) else stop (.separator list)

variable {list : Enumeration} {close : Char} (hclose : list.close.toList = [close])
  {item : Parser α} {s r : List Char}

include hclose

/-- A round comes to the end of the list, or reads an item in front of a comma
or of the end. -/
theorem looseRound_cases {o : Option α} (h : looseRound list item s = .ok o r) :
    (o = none ∧ s = close :: r)
      ∨ ∃ a q, o = some a ∧ s.head? ≠ some close ∧ item s = .ok a q
        ∧ ((∃ t, dropBlank q = ',' :: t ∧ r = dropBlank t)
          ∨ dropBlank q = r ∧ ∃ t, r = close :: t) := by
  unfold looseRound at h
  rcases eat_head_cases list.close hclose s with ⟨q, hs, heat⟩ | ⟨hs, heat⟩
  · rw [bind_of_ok heat] at h
    obtain ⟨rfl, rfl⟩ := Outcome.ok.inj h
    exact .inl ⟨rfl, hs⟩
  · rw [bind_of_ok heat] at h
    obtain ⟨a, q, hitem, h⟩ := bind_eq_ok h
    have hblank : blank q = .ok () (dropBlank q) := rfl
    rw [bind_of_ok hblank] at h
    rcases eat_head_cases "," rfl (dropBlank q) with ⟨t, hcomma, heat⟩ | ⟨-, heat⟩
    · rw [bind_of_ok heat] at h
      obtain ⟨rfl, rfl⟩ := Outcome.ok.inj h
      exact .inr ⟨a, q, rfl, hs, hitem, .inl ⟨t, hcomma, rfl⟩⟩
    · rw [bind_of_ok heat] at h
      -- without a comma, the end has to be ahead
      obtain ⟨ends, t, hahead, h⟩ := bind_eq_ok h
      obtain ⟨rfl, rfl⟩ := Outcome.ok.inj hahead
      split at h
      · next hends =>
        obtain ⟨rfl, rfl⟩ := Outcome.ok.inj h
        obtain ⟨t, ht⟩ := Option.isSome_iff_exists.1 hends
        rw [hclose, after?_eq_some_iff] at ht
        exact .inr ⟨a, q, rfl, hs, hitem, .inr ⟨rfl, t, ht⟩⟩
      · exact nomatch h

theorem looseRound_close (t : List Char) :
    looseRound list item (close :: t) = .ok none t := by
  have heat : eat list.close (close :: t) = .ok true t := by
    have happend := eat_append list.close t
    rw [hclose] at happend
    exact happend
  unfold looseRound
  rw [bind_of_ok heat]
  rfl

variable {P : α → Prop} (hitem : Reads 1 item P)

include hitem

theorem looseRound_advances : Advances (looseRound list item) := by
  intro s a r h
  rcases looseRound_cases hclose h with ⟨hnone, -⟩ | ⟨a, q, -, -, ha, hnext⟩
  · exact nomatch hnone
  · have hlt := (hitem.result ha).2
    have hq : (dropBlank q).length ≤ q.length := (List.dropWhile_suffix _).length_le
    rcases hnext with ⟨t, hcomma, rfl⟩ | ⟨rfl, -⟩
    · have ht : (dropBlank t).length ≤ t.length := (List.dropWhile_suffix _).length_le
      rw [hcomma, List.length_cons] at hq
      omega
    · omega

theorem listed_of_collect {s r : List Char} {as : List α}
    (h : collect (looseRound list item) s = .ok as r) :
    Listed close (fun s a q => item s = .ok a q) s as r := by
  -- by induction on the text, of which every round but the last reads something
  have hadvances := looseRound_advances hclose hitem
  rcases collect_eq_ok hadvances h with ⟨hnone, rfl⟩ | ⟨a, q, later, hsome, hlater, rfl⟩
  · rcases looseRound_cases hclose hnone with ⟨-, rfl⟩ | ⟨_, _, h, -⟩
    · exact .ended r
    · exact nomatch h
  · have hlt := hadvances hsome
    rcases looseRound_cases hclose hsome with ⟨h, -⟩ | ⟨a', q', heq, hs, ha, hnext⟩
    · exact nomatch h
    · obtain rfl := Option.some.inj heq
      rcases hnext with ⟨t, hcomma, rfl⟩ | ⟨hq, t, rfl⟩
      · exact .comma hs ha hcomma (listed_of_collect hlater)
      · -- the next round comes to the end that is ahead
        rw [collect_none (looseRound_close hclose t)] at hlater
        obtain ⟨rfl, rfl⟩ := Outcome.ok.inj hlater
        exact .last hs ha hq
termination_by s.length

/-- What has been read as a list is one. -/
theorem listed_of_looseList {as : List α} (h : looseList list item s = .ok as r) :
    Listed close (fun s a q => item s = .ok a q) (dropBlank s) as r :=
  listed_of_collect hclose hitem h

end

/-! ## §2. Elements and items. -/

section

variable {inner : Nested} {s r : List Char}

/-- A text that starts with an element of an array: a literal, with a star in
front or without. -/
inductive ElementText (inner : Nested) : List Char → Bool × Expr → List Char → Prop where
  | plain {s q : List Char} {e : Expr} (hstar : s.head? ≠ some '*')
      (he : inner.literal s = .ok e q) : ElementText inner s (false, e) q
  | starred {s q : List Char} {e : Expr} (he : inner.literal s = .ok e q) :
      ElementText inner ('*' :: s) (true, e) q

/-- A text that starts with a key, a colon and a literal. -/
def FieldText (inner : Nested) (s : List Char) (key : String) (value : Expr)
    (q : List Char) : Prop :=
  ∃ t u, name s = .ok key t ∧ dropBlank t = ':' :: u ∧ inner.literal (dropBlank u) = .ok value q

/-- A text that starts with an item of a hash, with a star in front or
without. -/
inductive ItemText (inner : Nested) : List Char → Field Expr → List Char → Prop where
  | plain {s q : List Char} {key : String} {value : Expr} (hstar : s.head? ≠ some '*')
      (hf : FieldText inner s key value q) : ItemText inner s ⟨key, value, false⟩ q
  | starred {s q : List Char} {key : String} {value : Expr} (hf : FieldText inner s key value q) :
      ItemText inner ('*' :: s) ⟨key, value, true⟩ q

theorem ElementText.unique {w w' : Bool × Expr} {q q' : List Char} (h : ElementText inner s w q)
    (h' : ElementText inner s w' q') : w = w' ∧ q = q' := by
  cases h with
  | plain hstar he =>
    cases h' with
    | plain _ he' =>
      obtain ⟨rfl, rfl⟩ := Outcome.ok.inj (he.symm.trans he')
      exact ⟨rfl, rfl⟩
    | starred _ => exact absurd rfl hstar
  | starred he =>
    cases h' with
    | plain hstar _ => exact absurd rfl hstar
    | starred he' =>
      obtain ⟨rfl, rfl⟩ := Outcome.ok.inj (he.symm.trans he')
      exact ⟨rfl, rfl⟩

theorem FieldText.unique {key key' : String} {value value' : Expr} {q q' : List Char}
    (h : FieldText inner s key value q) (h' : FieldText inner s key' value' q') :
    key = key' ∧ value = value' ∧ q = q' := by
  obtain ⟨t, u, hkey, hcolon, hvalue⟩ := h
  obtain ⟨t', u', hkey', hcolon', hvalue'⟩ := h'
  obtain ⟨rfl, rfl⟩ := Outcome.ok.inj (hkey.symm.trans hkey')
  obtain rfl := (List.cons.inj (hcolon.symm.trans hcolon')).2
  obtain ⟨rfl, rfl⟩ := Outcome.ok.inj (hvalue.symm.trans hvalue')
  exact ⟨rfl, rfl, rfl⟩

theorem ItemText.unique {f f' : Field Expr} {q q' : List Char} (h : ItemText inner s f q)
    (h' : ItemText inner s f' q') : f = f' ∧ q = q' := by
  cases h with
  | plain hstar hf =>
    cases h' with
    | plain _ hf' =>
      obtain ⟨rfl, rfl, rfl⟩ := hf.unique hf'
      exact ⟨rfl, rfl⟩
    | starred _ => exact absurd rfl hstar
  | starred hf =>
    cases h' with
    | plain hstar _ => exact absurd rfl hstar
    | starred hf' =>
      obtain ⟨rfl, rfl, rfl⟩ := hf.unique hf'
      exact ⟨rfl, rfl⟩

theorem elementText_of_element {w : Bool × Expr} {q : List Char}
    (h : element inner s = .ok w q) : ElementText inner s w q := by
  unfold element at h
  rcases eat_head_cases "*" rfl s with ⟨t, rfl, heat⟩ | ⟨hstar, heat⟩
  all_goals
    rw [bind_of_ok heat] at h
    obtain ⟨e, q', he, h⟩ := bind_eq_ok h
    obtain ⟨rfl, rfl⟩ := Outcome.ok.inj h
  · exact .starred he
  · exact .plain hstar he

theorem fieldText_of_field {starred : Bool} {f : Field Expr} {q : List Char}
    (h : field inner starred s = .ok f q) :
    f.starred = starred ∧ FieldText inner s f.key f.value q := by
  unfold field at h
  obtain ⟨key, t, hkey, h⟩ := bind_eq_ok h
  obtain ⟨_, t', hblank, h⟩ := bind_eq_ok h
  obtain ⟨-, rfl⟩ := Outcome.ok.inj hblank
  obtain ⟨_, u, hcolon, h⟩ := bind_eq_ok h
  obtain ⟨_, u', hblank', h⟩ := bind_eq_ok h
  obtain ⟨-, rfl⟩ := Outcome.ok.inj hblank'
  obtain ⟨value, q', hvalue, h⟩ := bind_eq_ok h
  obtain ⟨rfl, rfl⟩ := Outcome.ok.inj h
  exact ⟨rfl, ⟨t, u, hkey, exactly_eq_ok hcolon, hvalue⟩⟩

theorem itemText_of_hashItem {f : Field Expr} {q : List Char}
    (h : hashItem inner s = .ok f q) : ItemText inner s f q := by
  unfold hashItem at h
  obtain ⟨key, value, starred⟩ := f
  rcases eat_head_cases "*" rfl s with ⟨t, rfl, heat⟩ | ⟨hstar, heat⟩
  all_goals
    rw [bind_of_ok heat] at h
    obtain ⟨rfl, hf⟩ := fieldText_of_field h
  · exact .starred hf
  · exact .plain hstar hf

/-! ## §3. Literals. -/

/-- A text that starts with an array of these elements. -/
def ArrayText (inner : Nested) (s : List Char) (written : List (Bool × Expr)) (r : List Char) :
    Prop :=
  ∃ q, s = '[' :: q ∧ Listed ']' (ElementText inner) (dropBlank q) written r

/-- A text that starts with a hash of these items. -/
def HashText (inner : Nested) (s : List Char) (written : List (Field Expr)) (r : List Char) :
    Prop :=
  ∃ q, s = '\x7b' :: q ∧ Listed '\x7d' (ItemText inner) (dropBlank q) written r

/-- A text starts with one array at most. -/
theorem ArrayText.unique {written written' : List (Bool × Expr)} {r' : List Char}
    (h : ArrayText inner s written r) (h' : ArrayText inner s written' r') :
    written = written' ∧ r = r' := by
  obtain ⟨q, rfl, hlist⟩ := h
  obtain ⟨q', hq, hlist'⟩ := h'
  obtain rfl := (List.cons.inj hq).2
  have helement : ∀ s w w' q q', ElementText inner s w q → ElementText inner s w' q' →
      w = w' ∧ q = q' := fun _ _ _ _ _ h h' => h.unique h'
  exact hlist.unique (by decide) helement hlist'

/-- A text starts with one hash at most. -/
theorem HashText.unique {written written' : List (Field Expr)} {r' : List Char}
    (h : HashText inner s written r) (h' : HashText inner s written' r') :
    written = written' ∧ r = r' := by
  obtain ⟨q, rfl, hlist⟩ := h
  obtain ⟨q', hq, hlist'⟩ := h'
  obtain rfl := (List.cons.inj hq).2
  have hitem : ∀ s f f' q q', ItemText inner s f q → ItemText inner s f' q' →
      f = f' ∧ q = q' := fun _ _ _ _ _ h h' => h.unique h'
  exact hlist.unique (by decide) hitem hlist'

theorem ofParts_cases (parts : List Expr) :
    (∃ t, Expr.ofParts parts = .text t) ∨ Expr.ofParts parts = .template parts := by
  unfold Expr.ofParts
  split
  · exact .inl ⟨_, rfl⟩
  · exact .inl ⟨_, rfl⟩
  · exact .inr rfl

theorem quoted_cases {quote : String} {e : Expr} (h : quoted inner quote s = .ok e r) :
    (∃ t, e = .text t) ∨ ∃ parts, e = .template parts := by
  unfold quoted at h
  obtain ⟨_, q, -, h⟩ := bind_eq_ok h
  obtain ⟨pieces, q', -, h⟩ := bind_eq_ok h
  obtain ⟨rfl, rfl⟩ := Outcome.ok.inj h
  exact (ofParts_cases _).imp id fun h => ⟨_, h⟩

theorem verbatim_cases {quote : String} {e : Expr} (h : verbatim quote s = .ok e r) :
    ∃ t, e = .text t := by
  unfold verbatim at h
  obtain ⟨_, q, -, h⟩ := bind_eq_ok h
  obtain ⟨content, q', -, h⟩ := bind_eq_ok h
  obtain ⟨_, q'', -, h⟩ := bind_eq_ok h
  obtain ⟨rfl, rfl⟩ := Outcome.ok.inj h
  exact ⟨_, rfl⟩

/-- What is read between quotes is a text. -/
theorem textLiteral_cases {e : Expr} (h : textLiteral inner s = .ok e r) :
    (∃ t, e = .text t) ∨ ∃ parts, e = .template parts := by
  unfold textLiteral at h
  obtain ⟨triple, q, -, h⟩ := bind_eq_ok h
  obtain ⟨tripleSingle, q', -, h⟩ := bind_eq_ok h
  obtain ⟨singleQuote, q'', -, h⟩ := bind_eq_ok h
  split at h
  · exact .inl (verbatim_cases h)
  · split at h
    · exact .inl (verbatim_cases h)
    · split at h
      · exact quoted_cases h
      · exact quoted_cases h

theorem written_arrayLiteral (hin : inner.Lawful) {e : Expr} (h : arrayLiteral inner s = .ok e r) :
    ∃ written, ArrayText inner s written r ∧ e = .ofElements written := by
  unfold arrayLiteral at h
  obtain ⟨_, q, hopen, h⟩ := bind_eq_ok h
  obtain ⟨written, q', hlist, h⟩ := bind_eq_ok h
  obtain ⟨rfl, rfl⟩ := Outcome.ok.inj h
  have hlisted := listed_of_looseList rfl (element_reads hin) hlist
  exact ⟨written, ⟨q, exactly_eq_ok hopen, hlisted.mono fun _ _ _ => elementText_of_element⟩, rfl⟩

theorem written_hashLiteral (hin : inner.Lawful) {e : Expr} (h : hashLiteral inner s = .ok e r) :
    ∃ written, HashText inner s written r ∧ e = .ofItems written := by
  unfold hashLiteral at h
  obtain ⟨_, q, hopen, h⟩ := bind_eq_ok h
  obtain ⟨written, q', hlist, h⟩ := bind_eq_ok h
  obtain ⟨rfl, rfl⟩ := Outcome.ok.inj h
  have hlisted := listed_of_looseList rfl (hashItem_reads hin) hlist
  exact ⟨written, ⟨q, exactly_eq_ok hopen, hlisted.mono fun _ _ _ => itemText_of_hashItem⟩, rfl⟩

/-- A literal that has been read is a text, an array that was written with
these elements, or a hash that was written with these items. -/
theorem literal_cases (hin : inner.Lawful) {e : Expr} (h : literal inner s = .ok e r) :
    ((∃ t, e = .text t) ∨ ∃ parts, e = .template parts)
      ∨ (∃ written, ArrayText inner s written r ∧ e = .ofElements written)
      ∨ ∃ written, HashText inner s written r ∧ e = .ofItems written := by
  unfold literal at h
  obtain ⟨text, q, hq, h⟩ := bind_eq_ok h
  obtain ⟨-, rfl⟩ := Outcome.ok.inj hq
  obtain ⟨array, q', hq', h⟩ := bind_eq_ok h
  obtain ⟨-, rfl⟩ := Outcome.ok.inj hq'
  obtain ⟨hash, q'', hq'', h⟩ := bind_eq_ok h
  obtain ⟨-, rfl⟩ := Outcome.ok.inj hq''
  split at h
  · exact .inl (textLiteral_cases h)
  · split at h
    · exact .inr (.inl (written_arrayLiteral hin h))
    · split at h
      · exact .inr (.inr (written_hashLiteral hin h))
      · exact nomatch h

theorem literal_array (hin : inner.Lawful) {elements : List Expr} {default : Option Nat}
    (h : literal inner s = .ok (.array elements default) r) :
    ∃ written, ArrayText inner s written r
      ∧ elements = written.map Prod.snd ∧ default = lastStarred written := by
  rcases literal_cases hin h with (⟨_, he⟩ | ⟨_, he⟩) | ⟨written, htext, he⟩ | ⟨_, _, he⟩
  · exact nomatch he
  · exact nomatch he
  · obtain ⟨rfl, rfl⟩ := Expr.array.inj he
    exact ⟨written, htext, rfl, rfl⟩
  · exact nomatch he

theorem literal_hash (hin : inner.Lawful) {items : List (Field Expr)} {default : Option String}
    (h : literal inner s = .ok (.hash items default) r) :
    ∃ written, HashText inner s written r
      ∧ items = Field.settle written ∧ default = starredKey (Field.settle written) := by
  rcases literal_cases hin h with (⟨_, he⟩ | ⟨_, he⟩) | ⟨_, _, he⟩ | ⟨written, htext, he⟩
  · exact nomatch he
  · exact nomatch he
  · exact nomatch he
  · obtain ⟨rfl, rfl⟩ := Expr.hash.inj he
    exact ⟨written, htext, rfl, rfl⟩

end

end Phrasebook
