/-
  Phrasebook.Proofs.Grammar.Spelling
  ────────────────────────────────
  **THE SPELLINGS OF AN EXPRESSION.**

  `Spells n e s` says that a resource may write the expression `e` as `s`,
  opening at most `n` nesting levels: with any blanks around operators, inside
  of brackets and parentheses and around commas, and with any zeros in front
  of numbers.  Which operand may stand where is not its concern.

      Spells.mono    —  more levels may be opened
      Spells.start   —  what a spelling starts with
      Plain.spells   —  every expression without literals has a spelling
-/
import Phrasebook.Proofs.Grammar.Levels

namespace Phrasebook

open Phrasebook.Parser
open Phrasebook.Resource (AllBlank)

/-! ## §1. Spellings. -/

/-- A spelled item of a list, with the blanks around it. -/
structure Spelled where
  expr : Expr
  text : List Char
  before : List Char
  after : List Char

/-- The item between its blanks. -/
def Spelled.padded (a : Spelled) : List Char :=
  a.before ++ (a.text ++ a.after)

/-- Items of a list, with commas between them. -/
def commaText : List Spelled → List Char
  | [] => []
  | [a] => a.padded
  | a :: b :: as => a.padded ++ ',' :: commaText (b :: as)

/-- The text is a spelling of the expression that opens at most so many
nesting levels. -/
inductive Spells : Nat → Expr → List Char → Prop where
  | name {n : Nat} {id : String} (h : IsName id) : Spells n (.name id) id.toList
  | var {n : Nat} {id : String} (h : IsName id) : Spells n (.var id) ('$' :: id.toList)
  | global {n : Nat} {id : String} (h : IsName id) : Spells n (.global id) ('@' :: id.toList)
  | number {n : Nat} {digits : List Char} (h : IsNumeral digits) :
      Spells n (.number (Int64.ofNat (digitsValue digits))) digits
  | binary {n : Nat} {op : BinaryOp} {l r : Expr} {sl sr w w' : List Char} (hl : Spells n l sl)
      (hr : Spells n r sr) (hw : AllBlank w) (hw' : AllBlank w') :
      Spells n (.binary op l r) (sl ++ (w ++ (op.symbol.toList ++ (w' ++ sr))))
  | logical {n : Nat} {op : LogicalOp} {l r : Expr} {sl sr w w' : List Char} (hl : Spells n l sl)
      (hr : Spells n r sr) (hw : AllBlank w) (hw' : AllBlank w') :
      Spells n (.logical op l r) (sl ++ (w ++ (op.symbol.toList ++ (w' ++ sr))))
  | unary {n : Nat} {op : UnaryOp} {e : Expr} {s w : List Char} (h : Spells n e s)
      (hw : AllBlank w) : Spells (n + 1) (.unary op e) (op.symbol.toList ++ (w ++ s))
  | conditional {n : Nat} {t c a : Expr} {st sc sa w₁ w₂ w₃ w₄ : List Char}
      (ht : Spells (n + 1) t st) (hc : Spells n c sc) (ha : Spells n a sa) (h₁ : AllBlank w₁)
      (h₂ : AllBlank w₂) (h₃ : AllBlank w₃) (h₄ : AllBlank w₄) :
      Spells (n + 1) (.conditional t c a)
        (st ++ (w₁ ++ '?' :: (w₂ ++ (sc ++ (w₃ ++ ':' :: (w₄ ++ sa))))))
  | callNone {n : Nat} {f : Expr} {sf w : List Char} (hf : Spells n f sf) (hw : AllBlank w) :
      Spells n (.call f []) (sf ++ '(' :: (w ++ [')']))
  | call {n : Nat} {f : Expr} {sf : List Char} {a : Spelled} {as : List Spelled}
      (hf : Spells (n + 1) f sf) (has : ∀ b ∈ a :: as, Spells n b.expr b.text)
      (hblank : ∀ b ∈ a :: as, AllBlank b.before ∧ AllBlank b.after) :
      Spells (n + 1) (.call f ((a :: as).map Spelled.expr))
        (sf ++ '(' :: (commaText (a :: as) ++ [')']))
  | propertyNamed {n : Nat} {b : Expr} {id : String} {sb : List Char} (hb : Spells n b sb)
      (h : IsName id) : Spells n (.property b (.named id)) (sb ++ '.' :: id.toList)
  | propertyComputed {n : Nat} {b e : Expr} {sb s w w' : List Char} (hb : Spells (n + 1) b sb)
      (he : Spells n e s) (hw : AllBlank w) (hw' : AllBlank w') :
      Spells (n + 1) (.property b (.computed e)) (sb ++ '[' :: (w ++ (s ++ (w' ++ [']']))))
  | attributeNamed {n : Nat} {b : Expr} {id : String} {sb : List Char} (hb : Spells n b sb)
      (h : IsName id) : Spells n (.attribute b (.named id)) (sb ++ '.' :: '.' :: id.toList)
  | attributeComputed {n : Nat} {b e : Expr} {sb s w w' : List Char} (hb : Spells (n + 1) b sb)
      (he : Spells n e s) (hw : AllBlank w) (hw' : AllBlank w') :
      Spells (n + 1) (.attribute b (.computed e))
        (sb ++ '.' :: '[' :: (w ++ (s ++ (w' ++ [']']))))
  | paren {n : Nat} {e : Expr} {s w w' : List Char} (h : Spells n e s) (hw : AllBlank w)
      (hw' : AllBlank w') : Spells (n + 1) (.paren e) ('(' :: (w ++ (s ++ (w' ++ [')']))))

namespace Spells

/-- A spelling may open one more level. -/
theorem mono {n : Nat} {e : Expr} {s : List Char} (h : Spells n e s) : Spells (n + 1) e s := by
  induction h with
  | name h => exact .name h
  | var h => exact .var h
  | global h => exact .global h
  | number h => exact .number h
  | binary _ _ hw hw' ihl ihr => exact .binary ihl ihr hw hw'
  | logical _ _ hw hw' ihl ihr => exact .logical ihl ihr hw hw'
  | unary _ hw ih => exact .unary ih hw
  | conditional _ _ _ h₁ h₂ h₃ h₄ iht ihc iha => exact .conditional iht ihc iha h₁ h₂ h₃ h₄
  | callNone _ hw ih => exact .callNone ih hw
  | call _ _ hblank ihf ihas => exact .call ihf ihas hblank
  | propertyNamed _ h ih => exact .propertyNamed ih h
  | propertyComputed _ _ hw hw' ihb ihe => exact .propertyComputed ihb ihe hw hw'
  | attributeNamed _ h ih => exact .attributeNamed ih h
  | attributeComputed _ _ hw hw' ihb ihe => exact .attributeComputed ihb ihe hw hw'
  | paren _ hw hw' ih => exact .paren ih hw hw'

theorem le {n m : Nat} {e : Expr} {s : List Char} (h : Spells n e s) (hnm : n ≤ m) :
    Spells m e s := by
  induction hnm with
  | refl => exact h
  | step _ ih => exact ih.mono

end Spells

/-! ## §2. What spellings start with. -/

/-- Can a name, a number, a variable, a global or a parenthesis start with the
character? -/
def startsBase (c : Char) : Bool :=
  isNameStart c || c.isDigit || c == '$' || c == '@' || c == '('

/-- Can a spelling start with the character? -/
def startsExpr (c : Char) : Bool :=
  startsBase c || c == '+' || c == '-' || c == '!'

theorem startsExpr_of_startsBase {c : Char} (h : startsBase c = true) : startsExpr c = true := by
  simp only [startsExpr, Bool.or_eq_true]
  exact .inl (.inl (.inl h))

theorem startsBase_of_isName {id : String} (h : IsName id) :
    ∃ c cs, id.toList = c :: cs ∧ startsBase c = true := by
  obtain ⟨c, cs, hid, hc, -⟩ := h
  refine ⟨c, cs, hid, ?_⟩
  simp only [startsBase, Bool.or_eq_true]
  exact .inl (.inl (.inl (.inl hc)))

theorem startsBase_of_isNumeral {digits : List Char} (h : IsNumeral digits) :
    ∃ c cs, digits = c :: cs ∧ startsBase c = true := by
  obtain ⟨hne, hdigits, -⟩ := h
  obtain ⟨c, cs, rfl⟩ := List.exists_cons_of_ne_nil hne
  refine ⟨c, cs, rfl, ?_⟩
  simp only [startsBase, Bool.or_eq_true]
  exact .inl (.inl (.inl (.inr (hdigits c List.mem_cons_self))))

/-- Neither a blank nor `=` nor `)` starts a spelling. -/
theorem startsExpr_cases {c : Char} (h : startsExpr c = true) :
    isBlank c = false ∧ c ≠ '=' ∧ c ≠ ')' := by
  refine ⟨?_, ?_, ?_⟩
  · cases hb : isBlank c with
    | false => rfl
    | true =>
      have hn := not_isNameRest_of_isBlank hb
      simp only [startsExpr, startsBase, Bool.or_eq_true, beq_iff_eq] at h
      rcases h with (((((((h | h) | rfl) | rfl) | rfl) | rfl) | rfl) | rfl)
      · rw [isNameRest_of_isNameStart h] at hn
        exact nomatch hn
      · rw [isNameRest_of_isDigit h] at hn
        exact nomatch hn
      all_goals exact absurd hb (by decide)
  · rintro rfl
    exact absurd h (by decide)
  · rintro rfl
    exact absurd h (by decide)

theorem solid_of_startsExpr {s : List Char} (h : ∃ c cs, s = c :: cs ∧ startsExpr c = true) :
    Solid s := by
  obtain ⟨c, cs, hs, hc⟩ := h
  exact ⟨c, cs, hs, (startsExpr_cases hc).1⟩

theorem BinaryOp.level_lt (op : BinaryOp) : op.level < Expr.prefixLevel := by
  cases op <;> decide

theorem LogicalOp.level_lt (op : LogicalOp) : op.level < Expr.prefixLevel := by
  cases op <;> decide

theorem memberLevel_le_of_canHaveAttribute {e : Expr} (h : e.canHaveAttribute = true) :
    Expr.memberLevel ≤ e.level := by
  cases e <;> first | exact Nat.le_refl 10 | exact Nat.le_succ 10 | exact nomatch h

/-- The first character of a text that has something behind it. -/
theorem exists_cons_append {p : Char → Prop} {s : List Char} (h : ∃ c cs, s = c :: cs ∧ p c)
    (t : List Char) : ∃ c cs, s ++ t = c :: cs ∧ p c := by
  obtain ⟨c, cs, rfl, hc⟩ := h
  exact ⟨c, cs ++ t, rfl, hc⟩

namespace Spells

variable {n : Nat} {e : Expr} {s : List Char}

theorem start (h : Spells n e s) : ∃ c cs, s = c :: cs ∧ startsExpr c = true := by
  induction h with
  | name h =>
    obtain ⟨c, cs, hid, hc⟩ := startsBase_of_isName h
    exact ⟨c, cs, hid, startsExpr_of_startsBase hc⟩
  | number h =>
    obtain ⟨c, cs, hdigits, hc⟩ := startsBase_of_isNumeral h
    exact ⟨c, cs, hdigits, startsExpr_of_startsBase hc⟩
  | var _ | global _ | paren _ _ _ _ => exact ⟨_, _, rfl, by decide⟩
  | @unary _ op _ _ _ _ _ _ => cases op <;> exact ⟨_, _, rfl, by decide⟩
  | binary _ _ _ _ ih _ | logical _ _ _ _ ih _ | conditional _ _ _ _ _ _ _ ih _ _
  | callNone _ _ ih | call _ _ _ ih _ | propertyNamed _ _ ih | propertyComputed _ _ _ _ ih _
  | attributeNamed _ _ ih | attributeComputed _ _ _ _ ih _ => exact exists_cons_append ih _

theorem solid (h : Spells n e s) : Solid s :=
  solid_of_startsExpr h.start

/-- No spelling of an access, a call or a primary starts with an operator. -/
theorem start_base (h : Spells n e s) :
    e.Written → Expr.memberLevel ≤ e.level → ∃ c cs, s = c :: cs ∧ startsBase c = true := by
  induction h with
  | name h => exact fun _ _ => startsBase_of_isName h
  | number h => exact fun _ _ => startsBase_of_isNumeral h
  | var _ | global _ | paren _ _ _ _ => exact fun _ _ => ⟨_, _, rfl, by decide⟩
  | @binary _ op _ _ _ _ _ _ _ _ _ _ _ _ =>
    exact fun _ hlevel => absurd hlevel (Nat.not_le_of_lt (Nat.lt_succ_of_lt op.level_lt))
  | @logical _ op _ _ _ _ _ _ _ _ _ _ _ _ =>
    exact fun _ hlevel => absurd hlevel (Nat.not_le_of_lt (Nat.lt_succ_of_lt op.level_lt))
  | unary _ _ _ => exact fun _ hlevel => absurd hlevel (Nat.not_succ_le_self 9)
  | conditional _ _ _ _ _ _ _ _ _ _ => exact fun _ hlevel => absurd hlevel (Nat.not_succ_le_zero 9)
  | callNone _ _ ih | call _ _ _ ih _ =>
    intro hw _
    cases hw with
    | call hf hlevel _ => exact exists_cons_append (ih hf hlevel) _
  | propertyNamed _ _ ih | propertyComputed _ _ _ _ ih _ =>
    intro hw _
    cases hw with
    | property hb hlevel _ => exact exists_cons_append (ih hb hlevel) _
  | attributeNamed _ _ ih | attributeComputed _ _ _ _ ih _ =>
    intro hw _
    cases hw with
    | attributeOf hb hbase _ =>
      exact exists_cons_append (ih hb (memberLevel_le_of_canHaveAttribute hbase)) _

end Spells

/-! ## §3. Expressions without literals. -/

/-- An expression over names, variables, globals and numbers, that opens at
most so many nesting levels. -/
inductive Expr.Plain : Nat → Expr → Prop where
  | name {n : Nat} {id : String} (h : IsName id) : Plain n (.name id)
  | var {n : Nat} {id : String} (h : IsName id) : Plain n (.var id)
  | global {n : Nat} {id : String} (h : IsName id) : Plain n (.global id)
  | number {n : Nat} {i : Int64} (h : 0 ≤ i.toInt) : Plain n (.number i)
  | binary {n : Nat} {op : BinaryOp} {l r : Expr} (hl : Plain n l) (hr : Plain n r) :
      Plain n (.binary op l r)
  | logical {n : Nat} {op : LogicalOp} {l r : Expr} (hl : Plain n l) (hr : Plain n r) :
      Plain n (.logical op l r)
  | unary {n : Nat} {op : UnaryOp} {e : Expr} (h : Plain n e) : Plain (n + 1) (.unary op e)
  | conditional {n : Nat} {t c a : Expr} (ht : Plain (n + 1) t) (hc : Plain n c)
      (ha : Plain n a) : Plain (n + 1) (.conditional t c a)
  | callNone {n : Nat} {f : Expr} (hf : Plain n f) : Plain n (.call f [])
  | call {n : Nat} {f a : Expr} {as : List Expr} (hf : Plain (n + 1) f)
      (has : ∀ b ∈ a :: as, Plain n b) : Plain (n + 1) (.call f (a :: as))
  | propertyNamed {n : Nat} {b : Expr} {id : String} (hb : Plain n b) (h : IsName id) :
      Plain n (.property b (.named id))
  | propertyComputed {n : Nat} {b e : Expr} (hb : Plain (n + 1) b) (he : Plain n e) :
      Plain (n + 1) (.property b (.computed e))
  | attributeNamed {n : Nat} {b : Expr} {id : String} (hb : Plain n b) (h : IsName id) :
      Plain n (.attribute b (.named id))
  | attributeComputed {n : Nat} {b e : Expr} (hb : Plain (n + 1) b) (he : Plain n e) :
      Plain (n + 1) (.attribute b (.computed e))
  | paren {n : Nat} {e : Expr} (h : Plain n e) : Plain (n + 1) (.paren e)

/-- The decimal digits of an integer that is not negative. -/
theorem exists_isNumeral {i : Int64} (h : 0 ≤ i.toInt) :
    ∃ digits, IsNumeral digits ∧ Int64.ofNat (digitsValue digits) = i := by
  have hvalue : digitsValue (Nat.toDigits 10 i.toInt.toNat) = i.toInt.toNat :=
    Nat.ofDigitChars_toDigits (by decide) (by decide)
  refine ⟨Nat.toDigits 10 i.toInt.toNat, ⟨?_, ?_, ?_⟩, ?_⟩
  · exact Nat.toDigits_ne_nil
  · exact fun d hd => Nat.isDigit_of_mem_toDigits (by decide) (by decide) hd
  · rw [hvalue, Int.toNat_of_nonneg h]
    exact i.toInt_le
  · rw [hvalue, ← Int64.ofInt_eq_ofNat, Int.toNat_of_nonneg h, Int64.ofInt_toInt]

/-- Expressions that have spellings can be spelled as a list. -/
theorem exists_spelled {n : Nat} {es : List Expr} (h : ∀ e ∈ es, ∃ s, Spells n e s) :
    ∃ as : List Spelled, as.map Spelled.expr = es ∧ (∀ a ∈ as, Spells n a.expr a.text)
      ∧ ∀ a ∈ as, AllBlank a.before ∧ AllBlank a.after := by
  induction es with
  | nil => exact ⟨[], rfl, nofun, nofun⟩
  | cons e es ih =>
    obtain ⟨s, hs⟩ := h e List.mem_cons_self
    obtain ⟨as, has, hspells, hblank⟩ := ih fun e' he' => h e' (List.mem_cons_of_mem _ he')
    refine ⟨⟨e, s, [], []⟩ :: as, congrArg (e :: ·) has, ?_, ?_⟩
    · exact List.forall_mem_cons.2 ⟨hs, hspells⟩
    · exact List.forall_mem_cons.2 ⟨⟨nofun, nofun⟩, hblank⟩

/-- Every expression without literals has a spelling. -/
theorem Expr.Plain.spells {n : Nat} {e : Expr} (h : e.Plain n) : ∃ s, Spells n e s := by
  have hnone : AllBlank [] := nofun
  induction h with
  | name h => exact ⟨_, .name h⟩
  | var h => exact ⟨_, .var h⟩
  | global h => exact ⟨_, .global h⟩
  | number h =>
    obtain ⟨digits, hdigits, rfl⟩ := exists_isNumeral h
    exact ⟨_, .number hdigits⟩
  | binary _ _ ihl ihr =>
    obtain ⟨sl, hl⟩ := ihl
    obtain ⟨sr, hr⟩ := ihr
    exact ⟨_, .binary hl hr hnone hnone⟩
  | logical _ _ ihl ihr =>
    obtain ⟨sl, hl⟩ := ihl
    obtain ⟨sr, hr⟩ := ihr
    exact ⟨_, .logical hl hr hnone hnone⟩
  | unary _ ih =>
    obtain ⟨s, hs⟩ := ih
    exact ⟨_, .unary hs hnone⟩
  | conditional _ _ _ iht ihc iha =>
    obtain ⟨st, ht⟩ := iht
    obtain ⟨sc, hc⟩ := ihc
    obtain ⟨sa, ha⟩ := iha
    exact ⟨_, .conditional ht hc ha hnone hnone hnone hnone⟩
  | callNone _ ih =>
    obtain ⟨sf, hf⟩ := ih
    exact ⟨_, .callNone hf hnone⟩
  | call _ _ ihf ihas =>
    obtain ⟨sf, hf⟩ := ihf
    obtain ⟨spelled, hmap, hspells, hblank⟩ := exists_spelled ihas
    cases spelled with
    | nil => exact nomatch hmap
    | cons b bs =>
      rw [← hmap]
      exact ⟨_, .call hf hspells hblank⟩
  | propertyNamed _ h ih =>
    obtain ⟨sb, hb⟩ := ih
    exact ⟨_, .propertyNamed hb h⟩
  | propertyComputed _ _ ihb ihe =>
    obtain ⟨sb, hb⟩ := ihb
    obtain ⟨s, he⟩ := ihe
    exact ⟨_, .propertyComputed hb he hnone hnone⟩
  | attributeNamed _ h ih =>
    obtain ⟨sb, hb⟩ := ih
    exact ⟨_, .attributeNamed hb h⟩
  | attributeComputed _ _ ihb ihe =>
    obtain ⟨sb, hb⟩ := ihb
    obtain ⟨s, he⟩ := ihe
    exact ⟨_, .attributeComputed hb he hnone hnone⟩
  | paren _ ih =>
    obtain ⟨s, hs⟩ := ih
    exact ⟨_, .paren hs hnone hnone⟩

end Phrasebook
