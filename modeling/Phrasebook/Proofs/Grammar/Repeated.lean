/-
  Phrasebook.Proofs.Grammar.Repeated
  ────────────────────────────────
  **REPEATED KEYS ARE REPLACED IN PLACE.**

  A hash and a list of attributes may give a key any number of times.  What
  has been read has every key once, in the order in which the keys come first
  in the text, and with the item that the key is given last:

      Field.InPlace        —  how items follow from those written
      inPlace_iff          —  which leaves no choice
      AttributesText       —  a list of attributes, as written
      keys_are_replaced_in_place
                           —  for all hashes and attributes that are read,
                              and for those of every entry of a resource
-/
import Phrasebook.Proofs.Expr.Settled
import Phrasebook.Proofs.Grammar.Descent

namespace Phrasebook

open Phrasebook.Parser

/-! ## §1. Items in place. -/

namespace Field

variable {α : Type} {written items items' : List (Field α)}

/-- The items come from those written: each key once, where it is written
first, with the value and the star that it is written with last. -/
structure InPlace (written items : List (Field α)) : Prop where
  distinct : (keys items).Nodup
  key_mem_iff : ∀ k, k ∈ keys items ↔ k ∈ keys written
  order : items.Pairwise fun f g => firstAt written f.key < firstAt written g.key
  mem_iff : ∀ f, f ∈ items ↔ Standing written f

theorem nodup_of_keys (h : (keys items).Nodup) : items.Nodup :=
  List.Nodup.of_map key h

/-- Where no key comes twice, the items stand in the order of their keys. -/
theorem pairwise_firstAt (h : (keys items).Nodup) :
    items.Pairwise fun f g => firstAt items f.key < firstAt items g.key := by
  rw [List.pairwise_iff_getElem]
  intro i j hi hj hij
  -- the place of a key is that of its item
  have hplace : ∀ (i : Nat) (hi : i < items.length), firstAt items items[i].key = i := by
    intro i hi
    have hlength : i < (keys items).length := by
      rw [keys, List.length_map]
      exact hi
    have hkey : (keys items)[i] = items[i].key := List.getElem_map key
    unfold firstAt
    rw [← hkey]
    exact h.idxOf_getElem i hlength
  rw [hplace i hi, hplace j hj]
  exact hij

theorem inPlace_settle (written : List (Field α)) : InPlace written (settle written) where
  distinct := nodup_keys_settle written
  key_mem_iff _ := mem_keys_settle
  order := (pairwise_firstAt (nodup_keys_settle written)).imp fun h => firstAt_settle_lt_iff.1 h
  mem_iff _ := mem_settle_iff

/-- The first key keeps its place, and what it is given last. -/
example : settle [⟨"a", "x", false⟩, ⟨"b", "y", false⟩, ⟨"a", "z", true⟩]
    = [⟨"a", "z", true⟩, ⟨"b", "y", false⟩] := by decide

/-- Items in the same places are the same. -/
theorem InPlace.unique (h : InPlace written items) (h' : InPlace written items') :
    items = items' := by
  have hmem : ∀ f, f ∈ items ↔ f ∈ items' := fun f => (h.mem_iff f).trans (h'.mem_iff f).symm
  have hperm : items.Perm items' :=
    (List.perm_ext_iff_of_nodup (nodup_of_keys h.distinct) (nodup_of_keys h'.distinct)).2 hmem
  refine hperm.eq_of_pairwise (fun f g _ _ hfg hgf => ?_) h.order h'.order
  omega

theorem inPlace_iff : InPlace written items ↔ items = settle written := by
  refine ⟨fun h => h.unique (inPlace_settle written), ?_⟩
  rintro rfl
  exact inPlace_settle written

/-- A star that is written nowhere is not among the items. -/
theorem InPlace.starred_eq_false (h : InPlace written items)
    (hwritten : ∀ f ∈ written, f.starred = false) : ∀ f ∈ items, f.starred = false :=
  fun f hf => hwritten f ((h.mem_iff f).1 hf).mem

end Field

/-! ## §2. Attributes, as written. -/

/-- What stands between an attribute and the next one, or the closing `>`: a
comma with blanks around it, or blanks, or nothing in front of the `>`. -/
inductive Separated : List Char → List Char → Prop where
  | comma {q t : List Char} (hcomma : dropBlank q = ',' :: t) : Separated q (dropBlank t)
  | blanks {q : List Char} (hblank : dropBlank q ≠ q) (hcomma : (dropBlank q).head? ≠ some ',') :
      Separated q (dropBlank q)
  | closing (r : List Char) : Separated ('>' :: r) ('>' :: r)

/-- A text that starts with attributes, up to and with the closing `>`, and
what is left of it.  No attribute is starred. -/
inductive AttributesText : List Char → List (Field Expr) → List Char → Prop where
  | ended (r : List Char) : AttributesText ('>' :: r) [] r
  | field {s q t r : List Char} {key : String} {value : Expr} {later : List (Field Expr)}
      (hs : s.head? ≠ some '>') (hf : FieldText outermost s key value q) (hsep : Separated q t)
      (hlater : AttributesText t later r) : AttributesText s (⟨key, value, false⟩ :: later) r

theorem Separated.unique {q t t' : List Char} (h : Separated q t) (h' : Separated q t') :
    t = t' := by
  have hclosing : ∀ r : List Char, dropBlank ('>' :: r) = '>' :: r := fun r => rfl
  cases h with
  | comma hcomma =>
    cases h' with
    | comma hcomma' => rw [(List.cons.inj (hcomma.symm.trans hcomma')).2]
    | blanks _ hnone => exact absurd (by rw [hcomma]; rfl) hnone
    | closing r => exact absurd (List.cons.inj ((hclosing r).symm.trans hcomma)).1 (by decide)
  | blanks hblank hnone =>
    cases h' with
    | comma hcomma' => exact absurd (by rw [hcomma']; rfl) hnone
    | blanks _ _ => rfl
    | closing r => exact absurd (hclosing r) hblank
  | closing r =>
    cases h' with
    | comma hcomma' => exact absurd (List.cons.inj ((hclosing r).symm.trans hcomma')).1 (by decide)
    | blanks hblank _ => exact absurd (hclosing r) hblank
    | closing _ => rfl

/-- A text starts with one list of attributes at most. -/
theorem AttributesText.unique {s r r' : List Char} {written written' : List (Field Expr)}
    (h : AttributesText s written r) (h' : AttributesText s written' r') :
    written = written' ∧ r = r' := by
  induction h generalizing written' r' with
  | ended r =>
    cases h' with
    | ended => exact ⟨rfl, rfl⟩
    | field hs _ _ _ => exact absurd rfl hs
  | field hs hf hsep _ ih =>
    cases h' with
    | ended => exact absurd rfl hs
    | field _ hf' hsep' hlater' =>
      obtain ⟨rfl, rfl, rfl⟩ := hf.unique hf'
      obtain rfl := hsep.unique hsep'
      obtain ⟨rfl, rfl⟩ := ih hlater'
      exact ⟨rfl, rfl⟩

theorem AttributesText.starred_eq_false {s r : List Char} {written : List (Field Expr)}
    (h : AttributesText s written r) : ∀ f ∈ written, f.starred = false := by
  induction h with
  | ended r => exact fun f hf => absurd hf List.not_mem_nil
  | field _ _ _ _ ih => exact List.forall_mem_cons.2 ⟨rfl, ih⟩

/-! ## §3. Attributes that have been read. -/

/-- Blanks are ahead where some are dropped. -/
theorem dropBlank_ne_of_isBlank {q : List Char} (h : ((q.head?.map isBlank).getD false) = true) :
    dropBlank q ≠ q := by
  cases q with
  | nil => exact nomatch h
  | cons c q =>
    intro heq
    have hc : isBlank c = false := head_of_dropWhile_eq heq
    have hblank : isBlank c = true := h
    rw [hc] at hblank
    exact nomatch hblank

/-- Nothing is dropped where no blanks are ahead. -/
theorem dropBlank_eq_of_not_isBlank {q : List Char}
    (h : ((q.head?.map isBlank).getD false) = false) : dropBlank q = q := by
  cases q with
  | nil => rfl
  | cons c q => exact dropBlank_of_not_isBlank h q

/-- A round comes to the closing `>`, or reads an attribute and what separates
it from the next. -/
theorem attributeRound_cases {s r : List Char} {o : Option (Field Expr)}
    (h : attributeRound s = .ok o r) :
    (o = none ∧ s = '>' :: r)
      ∨ ∃ key value q, o = some ⟨key, value, false⟩ ∧ s.head? ≠ some '>'
        ∧ FieldText outermost s key value q ∧ Separated q r := by
  unfold attributeRound at h
  rcases eat_head_cases ">" rfl s with ⟨t, rfl, heat⟩ | ⟨hs, heat⟩
  · rw [bind_of_ok heat] at h
    obtain ⟨rfl, rfl⟩ := Outcome.ok.inj h
    exact .inl ⟨rfl, rfl⟩
  · rw [bind_of_ok heat] at h
    obtain ⟨⟨key, value, starred⟩, q, hfield, h⟩ := bind_eq_ok h
    obtain ⟨rfl, hf⟩ := fieldText_of_field hfield
    refine .inr ⟨key, value, q, ?_⟩
    obtain ⟨spaced, q', hblanks, h⟩ := bind_eq_ok h
    obtain ⟨hspaced, rfl⟩ := Outcome.ok.inj hblanks
    rcases eat_head_cases "," rfl (dropBlank q) with ⟨t, hcomma, heat⟩ | ⟨hcomma, heat⟩
    · rw [bind_of_ok heat] at h
      obtain ⟨_, q', hblank, h⟩ := bind_eq_ok h
      obtain ⟨-, rfl⟩ := Outcome.ok.inj hblank
      obtain ⟨closes, q', hahead, h⟩ := bind_eq_ok h
      obtain ⟨-, rfl⟩ := Outcome.ok.inj hahead
      rw [if_pos (by simp)] at h
      obtain ⟨rfl, rfl⟩ := Outcome.ok.inj h
      exact ⟨rfl, hs, hf, .comma hcomma⟩
    · rw [bind_of_ok heat] at h
      obtain ⟨_, q', hblank, h⟩ := bind_eq_ok h
      obtain ⟨-, rfl⟩ := Outcome.ok.inj hblank
      obtain ⟨closes, q', hahead, h⟩ := bind_eq_ok h
      obtain ⟨hcloses, rfl⟩ := Outcome.ok.inj hahead
      rw [dropBlank_dropBlank] at h hcloses
      split at h
      · next hseparated =>
        obtain ⟨rfl, rfl⟩ := Outcome.ok.inj h
        refine ⟨rfl, hs, hf, ?_⟩
        cases hb : (q.head?.map isBlank).getD false with
        | true => exact .blanks (dropBlank_ne_of_isBlank hb) hcomma
        | false =>
          -- without blanks and a comma, the `>` is ahead
          have hq : dropBlank q = q := dropBlank_eq_of_not_isBlank hb
          obtain rfl : spaced = false := hspaced.symm.trans hb
          have hends : closes = true := by simpa using hseparated
          rw [hends, Option.isSome_iff_exists] at hcloses
          obtain ⟨t, ht⟩ := hcloses
          rw [hq, after?_eq_some_iff] at ht
          rw [hq]
          obtain rfl : q = '>' :: t := ht
          exact .closing t
      · exact nomatch h

theorem attributesText_of_collect {s r : List Char} {written : List (Field Expr)}
    (h : collect attributeRound s = .ok written r) : AttributesText s written r := by
  -- by induction on the text, of which every round but the last reads something
  have hadvances : Advances attributeRound := attributeRound_reads.advances
  rcases collect_eq_ok hadvances h with ⟨hnone, rfl⟩ | ⟨f, q, later, hsome, hlater, rfl⟩
  · rcases attributeRound_cases hnone with ⟨-, rfl⟩ | ⟨_, _, _, h, -⟩
    · exact .ended r
    · exact nomatch h
  · have hlt := hadvances hsome
    rcases attributeRound_cases hsome with ⟨h, -⟩ | ⟨key, value, p, heq, hs, hf, hsep⟩
    · exact nomatch h
    · obtain rfl := Option.some.inj heq
      exact .field hs hf hsep (attributesText_of_collect hlater)
termination_by s.length

/-- Attributes that have been read were written so, and no more is kept of
them than of the items of a hash. -/
theorem written_attributeList {s r : List Char} {attributes : List (Field Expr)}
    (h : attributeList s = .ok attributes r) :
    ∃ written, AttributesText s written r ∧ attributes = Field.settle written := by
  obtain ⟨written, q, hcollect, hsettle⟩ := bind_eq_ok h
  obtain ⟨rfl, rfl⟩ := Outcome.ok.inj hsettle
  exact ⟨written, attributesText_of_collect hcollect, rfl⟩

/-! ## §4. Hashes and attributes that have been read. -/

/-- The hash was written at the text, and its items are those that are in
place. -/
def HashPlaced (n : Nat) (s : List Char) (items : List (Field Expr)) (r : List Char) : Prop :=
  ∃! written, HashText (nested n) s written r
    ∧ ∀ others, Field.InPlace written others ↔ others = items

/-- The attributes were written at the text, and are those that are in place. -/
def AttributesPlaced (s : List Char) (attributes : List (Field Expr)) (r : List Char) : Prop :=
  (∃! written, AttributesText s written r
      ∧ ∀ others, Field.InPlace written others ↔ others = attributes)
    ∧ ∀ f ∈ attributes, f.starred = false

theorem hashPlaced {n : Nat} {s r : List Char} {items : List (Field Expr)}
    {default : Option String} (h : literal (nested n) s = .ok (.hash items default) r) :
    HashPlaced n s items r := by
  obtain ⟨written, htext, rfl, -⟩ := literal_hash (nested_lawful n) h
  exact ⟨written, ⟨htext, fun _ => Field.inPlace_iff⟩, fun _ h' => (h'.1.unique htext).1⟩

theorem attributesPlaced {s r : List Char} {attributes : List (Field Expr)}
    (h : attributeList s = .ok attributes r) : AttributesPlaced s attributes r := by
  obtain ⟨written, htext, rfl⟩ := written_attributeList h
  refine ⟨⟨written, ⟨htext, fun _ => Field.inPlace_iff⟩, fun _ h' => (h'.1.unique htext).1⟩, ?_⟩
  exact (Field.inPlace_settle written).starred_eq_false htext.starred_eq_false

/-! ## §5. All of them. -/

namespace Resource

/-- Whatever hash or list of attributes is read, with keys repeated in any
way: it was written in one way, and of that every key remains once, where it
comes first, with the value and the star that it has last.  Every hash of an
entry, and its attributes, were read so from a text at the end of the
resource. -/
theorem keys_are_replaced_in_place :
    (∀ n s items default r, (nested (n + 1)).literal s = .ok (.hash items default) r →
        HashPlaced n s items r)
      ∧ (∀ s attributes r, attributeList s = .ok attributes r → AttributesPlaced s attributes r)
      ∧ ∀ source entry, Yields source entry →
        (∀ root ∈ entry.exprs, ∀ items default, (Expr.hash items default).Within root →
          ∃ n s r, s <:+ source.toList ∧ HashPlaced n s items r)
        ∧ (entry.isTagged = true →
          ∃ s r, s <:+ source.toList ∧ AttributesPlaced s entry.attributes r) := by
  refine ⟨fun n s items default r h => hashPlaced h,
    fun s attributes r h => attributesPlaced h, fun source entry hentry => ⟨?_, fun htagged => ?_⟩⟩
  · intro root hroot items default hwithin
    have hread := hentry.readIn
    rw [← entry.trees_map_snd] at hroot
    obtain ⟨t, ht, rfl⟩ := List.mem_map.1 hroot
    rcases (hread.trees t ht).within hwithin with hplain | ⟨m, h⟩
    · exact nomatch hplain
    · cases h with
      | hash hs hread _ => exact ⟨_, _, _, hs, hashPlaced hread⟩
  · obtain ⟨s, r, hs, hattributes⟩ := (hentry.readIn.attributes htagged).place
    exact ⟨s, r, hs, attributesPlaced hattributes⟩

end Resource

end Phrasebook
