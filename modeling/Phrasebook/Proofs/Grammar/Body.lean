/-
  Phrasebook.Proofs.Grammar.Body
  ────────────────────────────────
  **BODIES OF MACROS.**

  A text is an expression if it can stand between the braces of a macro.  This
  does not depend on what is around the macro, since a body ends with its
  brace:

      braced_closes    —  what follows the closing brace does not matter
      entry_tagged     —  an entry is told by what follows its name
      read_macroText   —  a resource of one macro is read if its body is
-/
import Phrasebook.Proofs.Grammar.RoundTrip
import Phrasebook.Proofs.Resource.Salvage

namespace Phrasebook

open Phrasebook.Parser
open Phrasebook.Resource (AllBlank)

/-! ## §1. Expressions between braces. -/

/-- Read an expression up to the brace that closes it, and the brace. -/
def braced (n : Nat) : Parser Expr :=
  enclosed (nested n) "\x7d" fun e => e

/-- The text is the expression, blanks around it included, and opens at most
so many nesting levels. -/
def IsBody (n : Nat) (v : List Char) (e : Expr) : Prop :=
  braced n (v ++ ['}']) = .ok e []

/-- What follows the closing brace does not matter. -/
theorem braced_closes (n : Nat) : Closes 1 (braced n) Expr.Written := by
  refine .bind .blank fun _ _ => .bind (nested_lawful n).expression fun e he => ?_
  have hclose : Sealed "\x7d".toList := ⟨[], '}', rfl, rfl⟩
  exact .bind .blank fun _ _ => .map (.exactly hclose) fun _ _ => he

variable {n : Nat} {v : List Char} {e : Expr}

theorem isBody_iff (t : List Char) : IsBody n v e ↔ braced n (v ++ '}' :: t) = .ok e t := by
  have hsplit : ∀ t, v ++ '}' :: t = (v ++ ['}']) ++ t := fun t => by
    rw [List.append_assoc]
    rfl
  constructor
  · intro h
    have hnil : braced n ((v ++ ['}']) ++ []) = .ok e [] := by
      rw [List.append_nil]
      exact h
    rw [hsplit t]
    exact ((braced_closes n).closed hnil).2 t
  · intro h
    rw [hsplit t] at h
    have hnil := ((braced_closes n).closed h).2 []
    rw [List.append_nil] at hnil
    exact hnil

/-- Two braces close an expression where one does. -/
theorem IsBody.enclosed {β : Type} (h : IsBody n v e) (make : Expr → β) (t : List Char) :
    enclosed (nested n) "\x7d\x7d" make (v ++ '}' :: '}' :: t) = .ok (make e) t := by
  obtain ⟨_, s₁, hblank, h₁⟩ := bind_eq_ok ((isBody_iff ('}' :: t)).1 h)
  obtain ⟨e', s₂, hexpression, h₂⟩ := bind_eq_ok h₁
  obtain ⟨_, s₃, hspace, h₃⟩ := bind_eq_ok h₂
  obtain ⟨_, s₄, hclose, h₄⟩ := bind_eq_ok h₃
  obtain ⟨rfl, rfl⟩ := Outcome.ok.inj h₄
  have hclose₂ : exactly "\x7d\x7d" s₃ = .ok () t := by
    rw [exactly_eq_ok hclose]
    exact exactly_append "\x7d\x7d" t
  unfold Phrasebook.enclosed
  rw [bind_of_ok hblank, bind_of_ok hexpression, bind_of_ok hspace, bind_of_ok hclose₂]
  rfl

/-- A spelled tree, with blanks around it. -/
theorem Spells.isBody {s w w' : List Char} (h : Spells n e s) (he : e.Written) (hw : AllBlank w)
    (hw' : AllBlank w') : IsBody (n + 1) (w ++ (s ++ w')) e := by
  have hend : Ends '}' := ends_of_mem (by decide)
  have hread : ∀ t, Stops 0 t → (nested (n + 1)).expression (s ++ t) = .ok e (dropBlank t) :=
    (h.reads he).expression
  show enclosed (nested (n + 1)) "\x7d" _ (w ++ (s ++ w') ++ ['}']) = .ok e []
  simp only [List.append_assoc]
  exact enclosed_append (fun e => e) rfl hread h.solid hw hw' hend []

/-! ## §2. Entries with one name. -/

/-- An entity or a macro is told by what follows its name. -/
theorem entry_tagged {id : String} (hid : IsName id) {t : List Char}
    (ht : ∀ c ∈ t.head?, isNameRest c = false) :
    entry ('<' :: (id.toList ++ t))
      = if (after? "(".toList t).isSome then (.macroDef <$> macroRest id) t
        else (.entity <$> entityRest id) t := by
  have hentry : entry ('<' :: (id.toList ++ t)) = tagged ('<' :: (id.toList ++ t)) := by
    rw [entry_apply]
    rfl
  rw [hentry]
  show ((name >>= fun id => _ : Parser Entry) (id.toList ++ t)) = _
  rw [bind_apply, name_append hid ht]
  show (if (after? "(".toList t).isSome = true then .macroDef <$> macroRest id
    else .entity <$> entityRest id : Parser Entry) t = _
  split <;> rfl

/-- No attributes are left in front of the closing `>`. -/
theorem attributeList_nil (t : List Char) : attributeList ('>' :: t) = .ok [] t := by
  have hround : ∀ next : Parser (Option (Field Expr)), (do
      let closed ← eat ">"
      if closed then pure none else next) ('>' :: t) = .ok none t := fun _ => rfl
  unfold attributeList
  rw [bind_apply, collect_none (hround _)]
  rfl

theorem place_ne_nil (f : Field Expr) (kept : List (Field Expr)) : Field.place f kept ≠ [] := by
  cases kept with
  | nil => exact List.cons_ne_nil f []
  | cons g kept =>
    unfold Field.place
    split <;> exact List.cons_ne_nil _ _

/-- Written attributes settle to none only if none is written. -/
theorem settle_eq_nil {written : List (Field Expr)} (h : Field.settle written = []) :
    written = [] := by
  have hkept : ∀ (fs kept : List (Field Expr)), kept ≠ [] →
      fs.foldl (fun kept f => Field.place f kept) kept ≠ [] := by
    intro fs
    induction fs with
    | nil => exact fun kept h => h
    | cons g fs ih => exact fun kept _ => ih _ (place_ne_nil g kept)
  cases written with
  | nil => rfl
  | cons f written => exact absurd h (hkept written _ (place_ne_nil f []))

/-- Attributes that settle to none are the closing `>` alone. -/
theorem attributeList_eq_nil {s r : List Char} (h : attributeList s = .ok [] r) :
    s = '>' :: r := by
  obtain ⟨written, q, hcollect, hsettle⟩ := bind_eq_ok h
  obtain ⟨hwritten, rfl⟩ := Outcome.ok.inj hsettle
  obtain rfl := settle_eq_nil hwritten
  rcases collect_eq_ok attributeRound_reads.advances hcollect with ⟨hround, -⟩ | ⟨_, _, _, _, _, hcons⟩
  · -- a round without an attribute has read the `>`
    obtain ⟨closed, p, heat, hrest⟩ := bind_eq_ok hround
    rcases eat_cases ">" s with ⟨r', hs, heq⟩ | ⟨-, heq⟩
    · rw [heq] at heat
      obtain ⟨rfl, rfl⟩ := Outcome.ok.inj heat
      obtain ⟨-, rfl⟩ := Outcome.ok.inj hrest
      exact hs
    · rw [heq] at heat
      obtain ⟨rfl, rfl⟩ := Outcome.ok.inj heat
      obtain ⟨f, hf, -⟩ := (attribute_reads.result hrest).1
      exact nomatch hf
  · exact nomatch hcons

/-! ## §3. Resources of one macro. -/

/-- A macro without parameters and attributes. -/
def macroText (id : String) (v : List Char) : List Char :=
  '<' :: (id.toList ++ '(' :: ')' :: ' ' :: '{' :: (v ++ ['}', '>']))

/-- What is read behind the opening brace of a macro. -/
theorem macroRest_apply {id : String} (hpublic : isLocalName id = false) (t : List Char) :
    macroRest id ('(' :: ')' :: ' ' :: '{' :: t)
      = (braced maxNesting t).bind fun body r =>
          (attributeList (dropBlank r)).bind fun attributes r =>
            .ok ⟨id, [], body, attributes⟩ r := by
  have hend : Ends ')' := ends_of_mem (by decide)
  have hparameters : tightList .parameters parameter (')' :: ' ' :: '{' :: t)
      = .ok [] (' ' :: '{' :: t) := tightList_nil rfl hend parameter (w := []) nofun _
  have hopen : exactly "(" ('(' :: ')' :: ' ' :: '{' :: t) = .ok () (')' :: ' ' :: '{' :: t) :=
    exactly_append "(" _
  unfold macroRest
  rw [if_neg (by rw [hpublic]; decide), bind_of_ok hopen, bind_of_ok hparameters]
  show (outermost.expression (dropBlank t)).bind _
    = ((outermost.expression (dropBlank t)).bind _).bind _
  cases outermost.expression (dropBlank t) with
  | fail x r => rfl
  | ok body r =>
    show ((exactly "\x7d" (dropBlank r)).bind _) = ((exactly "\x7d" (dropBlank r)).bind _).bind _
    cases exactly "\x7d" (dropBlank r) with
    | fail x r => rfl
    | ok _ r => rfl

theorem entry_macroText {id : String} (hid : IsName id) (hpublic : isLocalName id = false)
    (v : List Char) :
    entry (macroText id v) = ((braced maxNesting (v ++ ['}', '>'])).bind fun body r =>
      (attributeList (dropBlank r)).bind fun attributes r =>
        .ok ⟨id, [], body, attributes⟩ r).bind fun m r => .ok (.macroDef m) r := by
  have hname : ∀ c ∈ ('(' :: ')' :: ' ' :: '{' :: (v ++ ['}', '>'])).head?,
      isNameRest c = false := by
    intro c hc
    obtain rfl := Option.some.inj hc
    decide
  have hcall : (after? "(".toList ('(' :: ')' :: ' ' :: '{' :: (v ++ ['}', '>']))).isSome = true :=
    rfl
  unfold macroText
  rw [entry_tagged hid hname, if_pos hcall]
  show (macroRest id _).bind _ = _
  rw [macroRest_apply hpublic]
  rfl

/-- A text with a character at its end that is no blank ends with no blanks. -/
theorem eq_nil_of_allBlank {s c b : List Char} {x : Char} (hx : isBlank x = false)
    (hb : AllBlank b) (h : s ++ [x] = c ++ b) : b = [] := by
  rcases List.eq_nil_or_concat b with rfl | ⟨b', y, rfl⟩
  · rfl
  · rw [List.concat_eq_append, ← List.append_assoc] at h
    have hxy : [x] = [y] := List.append_inj_right' h rfl
    obtain rfl := List.singleton_inj.1 hxy
    have hblank : isBlank x = true := hb x (by simp)
    rw [hx] at hblank
    exact nomatch hblank

theorem allBlank_of_dropBlank {s : List Char} (h : dropBlank s = []) : AllBlank s := by
  obtain ⟨gap, hgap, hs⟩ := Resource.exists_blank_append s
  rw [h, List.append_nil] at hs
  rw [hs]
  exact hgap

namespace Resource

/-- The only entry of a text is all of it, but for blanks. -/
theorem entry_of_read {s : List Char} {e : Entry} (hblank : dropBlank s = s)
    (h : read (String.ofList s) = .ok [e]) : ∃ r, entry s = .ok e r ∧ AllBlank r := by
  have hend : ∀ {q r : List Char}, nextEntry q = .ok none r → q = [] := by
    intro q r hq
    cases q with
    | nil => rfl
    | cons c q =>
      rw [nextEntry_cons] at hq
      cases he : entry (c :: q) <;> rw [he] at hq <;> exact nomatch hq
  unfold read at h
  rw [entries_ofList hblank] at h
  cases hc : collect nextEntry s with
  | fail x r =>
    rw [hc] at h
    exact nomatch h
  | ok es r =>
    rw [hc] at h
    obtain rfl : es = [e] := Except.ok.inj h
    rcases collect_eq_ok nextEntry_advances hc with ⟨-, hnil⟩ | ⟨e', q, later, hnext, hlater, heq⟩
    · exact nomatch hnil
    · obtain ⟨rfl, rfl⟩ := List.cons.inj heq
      -- nothing is left behind the entry
      have hq : q = [] := by
        rcases collect_eq_ok nextEntry_advances hlater with ⟨hnone, -⟩ | ⟨_, _, _, _, _, hcons⟩
        · exact hend hnone
        · exact nomatch hcons
      cases s with
      | nil => exact nomatch hnext
      | cons c s =>
        rw [nextEntry_cons] at hnext
        cases he : entry (c :: s) with
        | fail x p =>
          rw [he] at hnext
          exact nomatch hnext
        | ok e' p =>
          rw [he] at hnext
          obtain ⟨hsome, hp⟩ := Outcome.ok.inj hnext
          obtain rfl := Option.some.inj hsome
          exact ⟨p, rfl, allBlank_of_dropBlank (hp.trans hq)⟩

/-- A resource of one macro is read if, and only if, its body is. -/
theorem read_macroText {id : String} (hid : IsName id) (hpublic : isLocalName id = false)
    {v : List Char} {e : Expr} :
    read (String.ofList (macroText id v)) = .ok [.macroDef ⟨id, [], e, []⟩]
      ↔ IsBody maxNesting v e := by
  have hblank : dropBlank (macroText id v) = macroText id v :=
    dropBlank_of_not_isBlank (by decide) _
  have hcloses : dropBlank ['>'] = ['>'] := rfl
  constructor
  · intro h
    obtain ⟨r, hentry, hr⟩ := entry_of_read hblank h
    rw [entry_macroText hid hpublic] at hentry
    cases hbody : braced maxNesting (v ++ ['}', '>']) with
    | fail x q =>
      rw [hbody] at hentry
      exact nomatch hentry
    | ok body q =>
      cases hattributes : attributeList (dropBlank q) with
      | fail x p =>
        simp only [hbody, Outcome.bind, hattributes] at hentry
        exact nomatch hentry
      | ok attributes p =>
        simp only [hbody, Outcome.bind, hattributes] at hentry
        obtain ⟨hcall, rfl⟩ := Outcome.ok.inj hentry
        obtain ⟨-, -, rfl, rfl⟩ := Macro.mk.inj (Entry.macroDef.inj hcall)
        have hangle : dropBlank q = '>' :: p := attributeList_eq_nil hattributes
        obtain ⟨c, hc⟩ := (braced_closes maxNesting).suffix_ok hbody
        obtain ⟨w, hw, hq⟩ := exists_blank_append q
        rw [hangle] at hq
        have hsplit : (v ++ ['}']) ++ ['>'] = (c ++ (w ++ ['>'])) ++ p := by
          rw [hq] at hc
          simp only [List.append_assoc, List.cons_append, List.nil_append] at hc ⊢
          exact hc.symm
        -- neither behind the `>` nor in front of it is a blank
        obtain rfl : p = [] := eq_nil_of_allBlank (by decide) hr hsplit
        rw [List.append_nil, ← List.append_assoc] at hsplit
        obtain rfl : w = [] :=
          eq_nil_of_allBlank (by decide) hw (List.append_cancel_right hsplit)
        subst hq
        exact (isBody_iff ['>']).2 hbody
  · intro h
    refine read_of_ok (List.cons_ne_nil _ _) hblank ?_
    rw [entry_macroText hid hpublic, (isBody_iff ['>']).1 h]
    show ((attributeList (dropBlank ['>'])).bind _).bind _ = _
    rw [hcloses, attributeList_nil]
    rfl

end Resource

end Phrasebook
