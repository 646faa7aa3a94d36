/-
  Phrasebook.Proofs.Grammar.RoundTrip
  ────────────────────────────────
  **SPELLINGS ARE READ BACK.**

  A spelling of a written tree is read as this tree, by the reader of every
  level that the tree is of, if what follows does not go on with it:

      ReadsAt        —  what the reader of one level makes of a spelling
      ReadsAt.down   —  a tighter level is an operand of the next looser one
      ReadsBack.of_level
                     —  so the level of the tree settles all looser ones
      Spells.reads   —  by induction on the spelling
-/
import Phrasebook.Proofs.Grammar.Spelling

namespace Phrasebook

open Phrasebook.Parser
open Phrasebook.Resource (AllBlank)

/-! ## §1. From one level to the next. -/

/-- The reader of a level reads the text as the expression; as the beginning
of a chain it goes on from there. -/
structure ReadsAt (inner : Nested) (k : Nat) (e : Expr) (s : List Char) : Prop where
  reads : ∀ t, Stops k t → readerAt inner k (s ++ t) = .ok e t
  begins : Chained k → ∀ t, Stops (k + 1) t →
    readerAt inner k (s ++ t) = chain (extendAt inner k) e t

/-- The readers of all levels that the expression is of read the text as it. -/
structure ReadsBack (inner : Nested) (e : Expr) (s : List Char) : Prop where
  readsAt : ∀ k, 1 ≤ k → k ≤ e.level → ReadsAt inner k e s
  expression : ∀ t, Stops 0 t → conditional inner (s ++ t) = .ok e (dropBlank t)

section

variable {inner : Nested} {k : Nat} {e : Expr} {s : List Char}

/-- What begins a chain is all of it where its level stops. -/
theorem ReadsAt.of_begins (hk : Chained k) (h : ∀ t, Stops (k + 1) t →
    readerAt inner k (s ++ t) = chain (extendAt inner k) e t) : ReadsAt inner k e s where
  reads t ht := by
    rw [h t (ht.mono (Nat.le_succ k))]
    exact chain_none (extendAt_none inner hk ht e)
  begins _ := h

/-- What is of the next level begins a chain. -/
theorem ReadsAt.down (hk : Chained k) (h : ReadsAt inner (k + 1) e s) : ReadsAt inner k e s := by
  refine .of_begins hk fun t ht => ?_
  rw [readerAt_chained inner hk, bind_apply, h.reads t ht]
  rfl

/-- A text that no prefix operator starts is read as a member. -/
theorem prefixed_of_startsBase {c : Char} (hc : startsBase c = true) (t : List Char) :
    prefixed inner (c :: t) = member inner (c :: t) := by
  have hne : '+' ≠ c ∧ '-' ≠ c ∧ '!' ≠ c := by
    refine ⟨?_, ?_, ?_⟩
    all_goals
      rintro rfl
      exact absurd hc (by decide)
  have hplus : eat "+" (c :: t) = .ok false (c :: t) := eat_of_none (after?_eq_none hne.1 [] t)
  have hminus : eat "-" (c :: t) = .ok false (c :: t) := eat_of_none (after?_eq_none hne.2.1 [] t)
  have hnot : eat "!" (c :: t) = .ok false (c :: t) := eat_of_none (after?_eq_none hne.2.2 [] t)
  unfold prefixed
  rw [bind_apply, hplus]
  show ((eat "-" >>= fun minus => _ : Parser Expr) (c :: t)) = _
  rw [bind_apply, hminus]
  show ((eat "!" >>= fun bang => _ : Parser Expr) (c :: t)) = _
  rw [bind_apply, hnot]
  rfl

theorem ReadsAt.prefixed (hstart : ∃ c cs, s = c :: cs ∧ startsBase c = true)
    (h : ReadsAt inner Expr.memberLevel e s) : ReadsAt inner Expr.prefixLevel e s where
  reads t ht := by
    have hread := h.reads t (ht.mono (Nat.le_succ 9))
    obtain ⟨c, cs, rfl, hc⟩ := hstart
    exact (prefixed_of_startsBase hc (cs ++ t)).trans hread
  begins hk := absurd hk (by decide)

/-- An expression that is read at a level is read at all looser ones. -/
theorem ReadsAt.loosen (hstart : Expr.memberLevel ≤ e.level →
      ∃ c cs, s = c :: cs ∧ startsBase c = true)
    (d : Nat) : ∀ k, 1 ≤ k → k + d ≤ e.level → k + d ≤ 11 → ReadsAt inner (k + d) e s →
      ReadsAt inner k e s := by
  -- by induction on how many levels are between them
  induction d with
  | zero => exact fun k _ _ _ h => h
  | succ d ih =>
    intro k hk hlevel hmax h
    have hsucc : k + (d + 1) = k + 1 + d := by omega
    rw [hsucc] at hlevel hmax h
    have hnext := ih (k + 1) (by omega) hlevel hmax h
    by_cases hprefix : k = Expr.prefixLevel
    · subst hprefix
      have hmember : Expr.memberLevel ≤ e.level :=
        Nat.le_trans (Nat.le_add_right (Expr.prefixLevel + 1) d) hlevel
      exact .prefixed (hstart hmember) hnext
    · have hchained : Chained k := by
        simp only [Expr.prefixLevel] at hprefix
        simp only [Chained, List.mem_cons, List.not_mem_nil, or_false]
        omega
      exact .down hchained hnext

/-- An expression that is no choice is read as one that asks nothing. -/
theorem ReadsAt.expression (h : ReadsAt inner 1 e s) {t : List Char} (ht : Stops 0 t) :
    conditional inner (s ++ t) = .ok e (dropBlank t) := by
  have hread : disjunction inner (s ++ t) = .ok e t := h.reads t (ht.mono (Nat.le_succ 0))
  have hasked : eat "?" (dropBlank t) = .ok false (dropBlank t) := by
    refine eat_of_none ?_
    cases ha : after? "?".toList (dropBlank t) with
    | none => rfl
    | some r =>
      have hhead : (dropBlank t).head? = some '?' := by
        rw [after?_eq_some_iff.1 ha]
        rfl
      exact absurd (ht.spaced '?' hhead 0 rfl) (Nat.lt_irrefl 0)
  unfold conditional
  rw [bind_apply, hread]
  show ((eat "?" >>= fun asked => _ : Parser Expr) (dropBlank t)) = _
  rw [bind_apply, hasked]
  rfl

theorem level_le (e : Expr) : e.level ≤ 11 := by
  cases e with
  | binary op _ _ | logical op _ _ => exact Nat.le_trans (Nat.le_of_lt op.level_lt) (by decide)
  | _ => exact Nat.le_of_ble_eq_true rfl

/-- What is read at the level of the expression is read at all looser
ones. -/
theorem ReadsBack.of_level
    (hstart : Expr.memberLevel ≤ e.level → ∃ c cs, s = c :: cs ∧ startsBase c = true)
    (hlevel : 1 ≤ e.level) (h : ReadsAt inner e.level e s) : ReadsBack inner e s := by
  have hall : ∀ k, 1 ≤ k → k ≤ e.level → ReadsAt inner k e s := by
    intro k hk hke
    obtain ⟨d, hd⟩ := Nat.exists_eq_add_of_le hke
    rw [hd] at h
    exact .loosen hstart d k hk (Nat.le_of_eq hd.symm) (hd ▸ level_le e) h
  exact ⟨hall, fun t => (hall 1 (Nat.le_refl 1) hlevel).expression⟩

end

/-! ## §2. Primaries. -/

section

variable (inner : Nested) {t : List Char}

/-- What a base is told by. -/
theorem base_apply (c : Char) (s : List Char) :
    base inner (c :: s) = if '(' = c then parenthesis inner s else primary inner (c :: s) := by
  unfold base
  rw [bind_apply, eat_single (d := '(') rfl]
  split <;> rfl

/-- What a primary is told by. -/
theorem primary_apply (c : Char) (s : List Char) :
    primary inner (c :: s)
      = if c.isDigit then (Expr.number <$> number) (c :: s)
        else if startsLiteral c then inner.literal (c :: s)
        else if '$' = c then (Expr.var <$> name) s
        else if '@' = c then (Expr.global <$> name) s
        else (Expr.name <$> name) (c :: s) := by
  unfold primary
  show (if c.isDigit = true then _ else if startsLiteral c = true then _ else _ : Parser Expr)
    (c :: s) = _
  split
  · rfl
  · split
    · rfl
    · rw [bind_apply, eat_single (d := '$') rfl]
      split
      · rfl
      · show ((eat "@" >>= fun isGlobal => _ : Parser Expr) (c :: s)) = _
        rw [bind_apply, eat_single (d := '@') rfl]
        split <;> rfl

/-- What a letter or an underscore is not. -/
theorem isNameStart_cases {c : Char} (h : isNameStart c = true) :
    c.isDigit = false ∧ startsLiteral c = false ∧ '$' ≠ c ∧ '@' ≠ c ∧ '(' ≠ c := by
  refine ⟨?_, ?_, ?_, ?_, ?_⟩
  · cases hd : c.isDigit with
    | false => rfl
    | true =>
      have hstart := isNameStart_range h
      have hdigit := isDigit_range hd
      omega
  · cases hl : startsLiteral c with
    | false => rfl
    | true =>
      simp only [startsLiteral, Bool.or_eq_true, beq_iff_eq] at hl
      rcases hl with ((rfl | rfl) | rfl) | rfl <;> exact absurd h (by decide)
  all_goals
    rintro rfl
    exact absurd h (by decide)

theorem ReadsAt.of_base {e : Expr} {s : List Char}
    (h : ∀ t, Stops 11 t → base inner (s ++ t) = .ok e t) : ReadsAt inner 11 e s where
  reads := h
  begins hk := absurd hk (by decide)

theorem readsAt_name {id : String} (h : IsName id) :
    ReadsAt inner 11 (.name id) id.toList := by
  refine .of_base inner fun t ht => ?_
  have hread := name_append h (not_isNameRest_of_stops ht (Nat.le_refl 11))
  obtain ⟨c, cs, hid, hc, -⟩ := h
  rw [hid] at hread ⊢
  obtain ⟨hdigit, hliteral, hvar, hglobal, hparen⟩ := isNameStart_cases hc
  rw [List.cons_append] at hread ⊢
  rw [base_apply, if_neg hparen, primary_apply, if_neg (by rw [hdigit]; decide),
      if_neg (by rw [hliteral]; decide), if_neg hvar, if_neg hglobal]
  exact map_of_ok _ hread

theorem readsAt_var {id : String} (h : IsName id) :
    ReadsAt inner 11 (.var id) ('$' :: id.toList) := by
  refine .of_base inner fun t ht => ?_
  rw [List.cons_append, base_apply, if_neg (by decide), primary_apply, if_neg (by decide),
      if_neg (by decide), if_pos rfl]
  exact map_of_ok _ (name_append h (not_isNameRest_of_stops ht (Nat.le_refl 11)))

theorem readsAt_global {id : String} (h : IsName id) :
    ReadsAt inner 11 (.global id) ('@' :: id.toList) := by
  refine .of_base inner fun t ht => ?_
  rw [List.cons_append, base_apply, if_neg (by decide), primary_apply, if_neg (by decide),
      if_neg (by decide), if_neg (by decide), if_pos rfl]
  exact map_of_ok _ (name_append h (not_isNameRest_of_stops ht (Nat.le_refl 11)))

theorem readsAt_number {digits : List Char} (h : IsNumeral digits) :
    ReadsAt inner 11 (.number (Int64.ofNat (digitsValue digits))) digits := by
  refine .of_base inner fun t ht => ?_
  have hread := number_append h (not_isNameRest_of_stops ht (Nat.le_refl 11))
  obtain ⟨hne, hdigits, -⟩ := h
  obtain ⟨c, cs, rfl⟩ := List.exists_cons_of_ne_nil hne
  have hc : c.isDigit = true := hdigits c List.mem_cons_self
  have hparen : '(' ≠ c := by
    rintro rfl
    exact absurd hc (by decide)
  rw [List.cons_append] at hread ⊢
  rw [base_apply, if_neg hparen, primary_apply, if_pos hc]
  exact map_of_ok _ hread

/-! ## §3. Expressions in brackets. -/

/-- A character that ends a bracket or an item of a list. -/
structure Ends (c : Char) : Prop where
  notBlank : isBlank c = false
  join : joinLevel c = none
  operator : operatorLevel c = none
  notStart : startsExpr c = false

theorem ends_of_mem {c : Char} (h : c ∈ [')', ']', '}', ',', ':']) : Ends c := by
  simp only [List.mem_cons, List.not_mem_nil, or_false] at h
  rcases h with rfl | rfl | rfl | rfl | rfl
  all_goals exact ⟨by decide, by decide, by decide, by decide⟩

theorem Ends.stops {c : Char} (hc : Ends c) {w : List Char} (hw : AllBlank w) (t : List Char) :
    Stops 0 (w ++ c :: t) :=
  stops_cons hw hc.notBlank (by rw [hc.join]; exact nofun) (by rw [hc.operator]; exact nofun) t

variable {inner} in
/-- An expression between blanks, up to the character behind it. -/
theorem expression_padded {e : Expr} {s w w' : List Char} {c : Char}
    (hread : ∀ t, Stops 0 t → inner.expression (s ++ t) = .ok e (dropBlank t)) (hs : Solid s)
    (hw : AllBlank w) (hw' : AllBlank w') (hc : Ends c) (t : List Char) :
    inner.expression (dropBlank (w ++ (s ++ (w' ++ c :: t)))) = .ok e (c :: t) := by
  rw [dropBlank_solid hw hs, hread _ (hc.stops hw' t), dropBlank_cons hw' hc.notBlank]

/-- An expression in brackets, after the opening one. -/
def enclosed {β : Type} (symbol : String) (make : Expr → β) : Parser β := do
  blank
  let e ← inner.expression
  blank
  exactly symbol
  pure (make e)

variable {inner} in
theorem enclosed_append {β : Type} {symbol : String} (make : Expr → β) {e : Expr}
    {s w w' : List Char} {c : Char} (hsymbol : symbol.toList = [c])
    (hread : ∀ t, Stops 0 t → inner.expression (s ++ t) = .ok e (dropBlank t)) (hs : Solid s)
    (hw : AllBlank w) (hw' : AllBlank w') (hc : Ends c) (t : List Char) :
    enclosed inner symbol make (w ++ (s ++ (w' ++ c :: t))) = .ok (make e) t := by
  have hclose : exactly symbol (c :: t) = .ok () t := by
    have happend := exactly_append symbol t
    rw [hsymbol] at happend
    exact happend
  have hblank := dropBlank_of_not_isBlank hc.notBlank t
  unfold enclosed
  show ((inner.expression >>= fun e => _ : Parser β) (dropBlank _)) = _
  rw [bind_apply, expression_padded hread hs hw hw' hc]
  show ((exactly symbol >>= fun _ => _ : Parser β) (dropBlank (c :: t))) = _
  rw [hblank, bind_apply, hclose]
  rfl

variable {inner} in
theorem readsAt_paren {e : Expr} {s w w' : List Char}
    (hread : ∀ t, Stops 0 t → inner.expression (s ++ t) = .ok e (dropBlank t)) (hs : Solid s)
    (hw : AllBlank w) (hw' : AllBlank w') :
    ReadsAt inner 11 (.paren e) ('(' :: (w ++ (s ++ (w' ++ [')'])))) := by
  refine .of_base inner fun t ht => ?_
  have hend : Ends ')' := ends_of_mem (by decide)
  have hsplit : '(' :: (w ++ (s ++ (w' ++ [')']))) ++ t = '(' :: (w ++ (s ++ (w' ++ ')' :: t))) := by
    simp only [List.cons_append, List.append_assoc, List.nil_append]
  rw [hsplit, base_apply, if_pos rfl]
  exact enclosed_append Expr.paren rfl hread hs hw hw' hend t

/-! ## §4. Lists of expressions. -/

variable {inner} {list : Enumeration} {c : Char}

/-- What reads the items of a list reads their texts. -/
def ReadsItems (item : Parser Expr) (as : List Spelled) : Prop :=
  ∀ a ∈ as, (∃ c cs, a.text = c :: cs ∧ startsExpr c = true) ∧ AllBlank a.before ∧ AllBlank a.after
    ∧ ∀ t, Stops 0 t → item (a.text ++ t) = .ok a.expr (dropBlank t)

theorem padded_append (a : Spelled) (t : List Char) :
    a.padded ++ t = a.before ++ (a.text ++ (a.after ++ t)) := by
  simp only [Spelled.padded, List.append_assoc]

/-- An item of a list, up to the character behind it. -/
theorem item_padded {item : Parser Expr} {a : Spelled} {as : List Spelled}
    (h : ReadsItems item (a :: as)) {d : Char} (hd : Ends d) (t : List Char) :
    item (dropBlank (a.padded ++ d :: t)) = .ok a.expr (d :: t) := by
  obtain ⟨hs, hbefore, hafter, hread⟩ := h a List.mem_cons_self
  rw [padded_append, dropBlank_solid hbefore (solid_of_startsExpr hs), hread _ (hd.stops hafter t),
      dropBlank_cons hafter hd.notBlank]

/-- A list ends with its closing bracket. -/
theorem tightRound_close (hlist : list.close.toList = [c]) (hc : Ends c) (hcomma : ',' ≠ c)
    (item : Parser Expr) (t : List Char) : tightRound list item (c :: t) = .ok none t := by
  have hblank := dropBlank_of_not_isBlank hc.notBlank t
  unfold tightRound
  show ((eat "," >>= fun comma => _ : Parser (Option Expr)) (dropBlank (c :: t))) = _
  rw [hblank, bind_apply, eat_single (d := ',') rfl, if_neg hcomma]
  show ((eat list.close >>= fun ended => _ : Parser (Option Expr)) (c :: t)) = _
  rw [bind_apply, eat_single hlist, if_pos rfl]
  rfl

/-- A comma announces one more item. -/
theorem tightRound_comma {item : Parser Expr} {a : Spelled} {as : List Spelled}
    (h : ReadsItems item (a :: as)) {d : Char} (hd : Ends d) (t : List Char) :
    tightRound list item (',' :: (a.padded ++ d :: t)) = .ok (some a.expr) (d :: t) := by
  have hcomma : isBlank ',' = false := by decide
  unfold tightRound
  show ((eat "," >>= fun comma => _ : Parser (Option Expr)) (dropBlank (',' :: _))) = _
  rw [dropBlank_of_not_isBlank hcomma, bind_apply, eat_single (d := ',') rfl, if_pos rfl]
  show ((item >>= fun a => _ : Parser (Option Expr)) (dropBlank (a.padded ++ d :: t))) = _
  rw [bind_apply, item_padded h hd]
  rfl

/-- The items behind the first one, each with its comma. -/
def commaRest (as : List Spelled) : List Char :=
  as.flatMap fun a => ',' :: a.padded

theorem commaText_cons (a : Spelled) (as : List Spelled) :
    commaText (a :: as) = a.padded ++ commaRest as := by
  induction as generalizing a with
  | nil => exact (List.append_nil _).symm
  | cons b as ih =>
    rw [commaText, ih]
    rfl

/-- An item is followed by a comma or by the end of the list. -/
theorem exists_ends (hc : Ends c) (as : List Spelled) (t : List Char) :
    ∃ d u, commaRest as ++ c :: t = d :: u ∧ Ends d := by
  cases as with
  | nil => exact ⟨c, t, rfl, hc⟩
  | cons a as =>
    exact ⟨',', _, rfl, ends_of_mem (by decide)⟩

theorem collect_commaRest {item : Parser Expr} (hadv : Advances (tightRound list item))
    (hlist : list.close.toList = [c]) (hc : Ends c) (hcomma : ',' ≠ c) (as : List Spelled) :
    ReadsItems item as → ∀ t,
      collect (tightRound list item) (commaRest as ++ c :: t) = .ok (as.map Spelled.expr) t := by
  induction as with
  | nil => exact fun _ t => collect_none (tightRound_close hlist hc hcomma item t)
  | cons a as ih =>
    intro h t
    obtain ⟨d, u, hrest, hd⟩ := exists_ends hc as t
    have hlater := ih (fun b hb => h b (List.mem_cons_of_mem _ hb)) t
    have hsplit : commaRest (a :: as) ++ c :: t = ',' :: (a.padded ++ d :: u) := by
      rw [← hrest]
      simp only [commaRest, List.flatMap_cons, List.cons_append, List.append_assoc]
    rw [hrest] at hlater
    rw [hsplit, collect_some hadv (tightRound_comma h hd u), hlater]
    rfl

/-- A tight list of spelled items, after its opening bracket. -/
theorem tightList_append {item : Parser Expr} (hadv : Advances (tightRound list item))
    (hlist : list.close.toList = [c]) (hc : Ends c) (hcomma : ',' ≠ c) {a : Spelled}
    {as : List Spelled} (h : ReadsItems item (a :: as)) (t : List Char) :
    tightList list item (commaText (a :: as) ++ c :: t)
      = .ok ((a :: as).map Spelled.expr) t := by
  obtain ⟨d, u, hrest, hd⟩ := exists_ends hc as t
  have hlater := collect_commaRest hadv hlist hc hcomma as
    (fun b hb => h b (List.mem_cons_of_mem _ hb)) t
  have hfirst := item_padded h hd u
  obtain ⟨⟨b, bs, htext, hb⟩, hbefore, -, -⟩ := h a List.mem_cons_self
  have hsolid : Solid a.text := solid_of_startsExpr ⟨b, bs, htext, hb⟩
  rw [hrest] at hlater
  rw [padded_append, dropBlank_solid hbefore hsolid] at hfirst
  -- the list is not empty, since its closing bracket starts no expression
  have hopen : eat list.close (a.text ++ (a.after ++ d :: u))
      = .ok false (a.text ++ (a.after ++ d :: u)) := by
    have hne : c ≠ b := by
      rintro rfl
      exact absurd hb (by rw [hc.notStart]; decide)
    rw [htext, List.cons_append, eat_single hlist, if_neg hne]
  rw [commaText_cons, List.append_assoc, hrest, padded_append]
  unfold tightList
  show ((eat list.close >>= fun empty => _ : Parser (List Expr)) (dropBlank _)) = _
  rw [dropBlank_solid hbefore hsolid, bind_apply, hopen]
  show ((item >>= fun first => _ : Parser (List Expr)) _) = _
  rw [bind_apply, hfirst]
  show ((collect (tightRound list item) >>= fun others => _ : Parser (List Expr)) (d :: u)) = _
  rw [bind_apply, hlater]
  rfl

theorem tightList_nil {α : Type} (hlist : list.close.toList = [c]) (hc : Ends c)
    (item : Parser α) {w : List Char} (hw : AllBlank w) (t : List Char) :
    tightList list item (w ++ c :: t) = .ok [] t := by
  unfold tightList
  show ((eat list.close >>= fun empty => _ : Parser (List α)) (dropBlank _)) = _
  rw [dropBlank_cons hw hc.notBlank, bind_apply, eat_single hlist, if_pos rfl]
  rfl

end

/-! ## §5. Accesses and calls. -/

section

variable {inner : Nested} {e : Expr} {t : List Char}

theorem access_call (u : List Char) :
    access inner e ('(' :: u)
      = (some <$> Expr.call e <$> tightList .callArguments inner.expression) u := by
  rw [access_apply]
  rfl

theorem access_bracket (u : List Char) :
    access inner e ('[' :: u)
      = (some <$> Expr.property e <$> enclosed inner "]" Accessor.computed) u := by
  rw [access_apply]
  rfl

/-- A dot in front of a name is that of a property. -/
theorem access_dot {c : Char} (hc : isNameStart c = true) (u : List Char) :
    access inner e ('.' :: c :: u)
      = (some <$> Expr.property e <$> Accessor.named <$> name) (c :: u) := by
  have hdots : after? "..".toList ('.' :: c :: u) = none := by
    refine after?_eq_none (fun heq => ?_) [] u
    subst heq
    exact absurd hc (by decide)
  have hbracket : after? ".[".toList ('.' :: c :: u) = none := by
    refine after?_eq_none (fun heq => ?_) [] u
    subst heq
    exact absurd hc (by decide)
  rw [access_apply, hdots, hbracket]
  rfl

theorem access_dots (he : e.canHaveAttribute = true) (u : List Char) :
    access inner e ('.' :: '.' :: u)
      = (some <$> Expr.attribute e <$> Accessor.named <$> name) u := by
  rw [access_apply]
  show (some <$> attributeAccess inner e) ('.' :: '.' :: u) = _
  unfold attributeAccess
  rw [if_pos he]
  rfl

theorem access_dotBracket (he : e.canHaveAttribute = true) (u : List Char) :
    access inner e ('.' :: '[' :: u)
      = (some <$> Expr.attribute e <$> enclosed inner "]" Accessor.computed) u := by
  rw [access_apply]
  show (some <$> attributeAccess inner e) ('.' :: '[' :: u) = _
  unfold attributeAccess
  rw [if_pos he]
  rfl

end

/-! ## §6. Every spelling. -/

section

variable {inner : Nested} {k : Nat} {e e' : Expr} {s u : List Char}

/-- An operator with its right operand, an access or a call makes a longer
chain of its level. -/
theorem ReadsAt.extended (hin : inner.Lawful) (hk : Chained k) (he : e.WrittenAt k)
    (h : ReadsAt inner k e s) (hstops : ∀ t, Stops (k + 1) (u ++ t))
    (hextend : ∀ t, Stops (k + 1) t → extendAt inner k e (u ++ t) = .ok (some e') t) :
    ReadsAt inner k e' (s ++ u) := by
  refine .of_begins hk fun t ht => ?_
  rw [List.append_assoc, h.begins hk _ (hstops t)]
  exact chain_extendAt hin hk he (hextend t ht)

/-- An access or a call is no part of what is in front of it. -/
theorem stops_access {c : Char} (hc : c = '.' ∨ c = '[' ∨ c = '(') (t : List Char) :
    Stops (Expr.memberLevel + 1) (c :: t) := by
  have hmember : ∀ j, j = Expr.memberLevel → j < Expr.memberLevel + 1 := by
    rintro j rfl
    exact Nat.lt_succ_self _
  rcases hc with rfl | rfl | rfl
  all_goals
    refine stops_cons (w := []) nofun (by decide) (fun j hj => ?_) (fun j hj => ?_) t
    · exact hmember j (Option.some.inj hj).symm
    · exact absurd hj (Option.not_mem_none j)

theorem chained_memberLevel : Chained Expr.memberLevel := by
  decide

/-- A member with one access or call more. -/
theorem ReadsAt.accessed (hin : inner.Lawful) (he : e.WrittenAt Expr.memberLevel)
    (h : ReadsAt inner Expr.memberLevel e s) {c : Char} (hc : c = '.' ∨ c = '[' ∨ c = '(')
    (haccess : ∀ t, Stops (Expr.memberLevel + 1) t →
      access inner e (c :: (u ++ t)) = .ok (some e') t) :
    ReadsAt inner Expr.memberLevel e' (s ++ c :: u) :=
  h.extended hin chained_memberLevel he (fun t => stops_access hc (u ++ t)) haccess

/-- An operator is no part of an operand in front of it. -/
theorem stops_operator {symbol w : List Char} {c : Char} (hsymbol : ∃ cs, symbol = c :: cs)
    (hw : AllBlank w) (hc : isBlank c = false) (hjoin : joinLevel c = none)
    (hop : operatorLevel c = some k) (t : List Char) : Stops (k + 1) (w ++ (symbol ++ t)) := by
  obtain ⟨cs, rfl⟩ := hsymbol
  refine stops_cons hw hc (by rw [hjoin]; exact nofun) (fun j hj => ?_) (cs ++ t)
  rw [hop] at hj
  obtain rfl := Option.some.inj hj
  exact Nat.lt_succ_self _

theorem stops_binary (op : BinaryOp) {w : List Char} (hw : AllBlank w) (t : List Char) :
    Stops (op.level + 1) (w ++ (op.symbol.toList ++ t)) := by
  cases op <;> exact stops_operator ⟨_, rfl⟩ hw (by decide) (by decide) (by decide) t

theorem stops_logical (op : LogicalOp) {w : List Char} (hw : AllBlank w) (t : List Char) :
    Stops (op.level + 1) (w ++ (op.symbol.toList ++ t)) := by
  cases op <;> exact stops_operator ⟨_, rfl⟩ hw (by decide) (by decide) (by decide) t

theorem BinaryOp.one_le_level (op : BinaryOp) : 1 ≤ op.level := by
  cases op <;> decide

theorem LogicalOp.one_le_level (op : LogicalOp) : 1 ≤ op.level := by
  cases op <;> decide

/-- A prefix operator, blanks, and its operand, which is one level deeper. -/
theorem prefixed_append (op : UnaryOp) {n : Nat} {w t : List Char} (hw : AllBlank w)
    (hs : Solid s) (hread : prefixed (nested n) (s ++ t) = .ok e t) :
    prefixed (nested (n + 1)) (op.symbol.toList ++ (w ++ (s ++ t))) = .ok (.unary op e) t := by
  have hoperand : (nested (n + 1)).operand (w ++ (s ++ t)) = .ok e t := by
    show prefixed (nested n) (dropBlank (w ++ (s ++ t))) = _
    rw [dropBlank_solid hw hs, hread]
  cases op <;> exact map_of_ok _ hoperand

/-- A test, `?`, and the two branches, which are one level deeper. -/
theorem conditional_append {n : Nat} {c a : Expr} {sc sa w₁ w₂ w₃ w₄ t : List Char}
    (htest : ReadsAt (nested (n + 1)) 1 e s) (hc : ReadsBack (nested n) c sc)
    (ha : ReadsBack (nested n) a sa) (hsc : Solid sc) (hsa : Solid sa) (h₁ : AllBlank w₁)
    (h₂ : AllBlank w₂) (h₃ : AllBlank w₃) (h₄ : AllBlank w₄) (ht : Stops 0 t) :
    conditional (nested (n + 1))
        (s ++ (w₁ ++ '?' :: (w₂ ++ (sc ++ (w₃ ++ ':' :: (w₄ ++ (sa ++ t)))))))
      = .ok (.conditional e c a) (dropBlank t) := by
  have hasked : Stops 1 (w₁ ++ '?' :: (w₂ ++ (sc ++ (w₃ ++ ':' :: (w₄ ++ (sa ++ t)))))) :=
    stops_cons h₁ (by decide) (fun _ hj => absurd hj (Option.not_mem_none _))
      (fun j hj => Option.some.inj hj ▸ Nat.zero_lt_one) _
  have hcolon : Ends ':' := ends_of_mem (by decide)
  have htest : disjunction (nested (n + 1)) _ = .ok e _ := htest.reads _ hasked
  have hbranch : ∀ u, Stops 0 u → (nested (n + 1)).expression (sc ++ u) = .ok c (dropBlank u) :=
    hc.expression
  have hconsequent := expression_padded hbranch hsc h₂ h₃ hcolon (w₄ ++ (sa ++ t))
  have halternate : (nested (n + 1)).expression (dropBlank (w₄ ++ (sa ++ t)))
      = .ok a (dropBlank t) := by
    rw [dropBlank_solid h₄ hsa]
    exact ha.expression t ht
  unfold conditional
  rw [bind_apply, htest]
  show ((eat "?" >>= fun asked => _ : Parser Expr) (dropBlank (w₁ ++ '?' :: _))) = _
  rw [dropBlank_cons h₁ (by decide), bind_apply, eat_single (d := '?') rfl, if_pos rfl]
  show (((nested (n + 1)).expression >>= fun consequent => _ : Parser Expr)
    (dropBlank (w₂ ++ _))) = _
  rw [bind_apply, hconsequent]
  show ((nested (n + 1)).expression (dropBlank (w₄ ++ (sa ++ t)))).bind _ = _
  rw [halternate]
  rfl

end

/-- A spelling that is read at the level of its tree is read at all looser
ones. -/
theorem Spells.readsBack {n k : Nat} {e : Expr} {s : List Char} (h : Spells n e s)
    (he : e.Written) (hlevel : e.level = k) (hk : 1 ≤ k) (hread : ReadsAt (nested n) k e s) :
    ReadsBack (nested n) e s := by
  subst hlevel
  exact .of_level (h.start_base he) hk hread

/-- Every spelling of a written tree is read as this tree. -/
theorem Spells.reads {n : Nat} {e : Expr} {s : List Char} (h : Spells n e s) :
    e.Written → ReadsBack (nested n) e s := by
  have hbracket : Ends ']' := ends_of_mem (by decide)
  have hparen : Ends ')' := ends_of_mem (by decide)
  have hname : ∀ {id : String} {t : List Char}, IsName id → Stops (Expr.memberLevel + 1) t →
      Parser.name (id.toList ++ t) = .ok id t :=
    fun h ht => name_append h (not_isNameRest_of_stops ht (Nat.le_refl 11))
  have hprimary : 1 ≤ 11 := by decide
  induction h with
  | name h => exact fun he => (Spells.name h).readsBack he rfl hprimary (readsAt_name _ h)
  | var h => exact fun he => (Spells.var h).readsBack he rfl hprimary (readsAt_var _ h)
  | global h => exact fun he => (Spells.global h).readsBack he rfl hprimary (readsAt_global _ h)
  | number h => exact fun he => (Spells.number h).readsBack he rfl hprimary (readsAt_number _ h)
  | @binary n op l r sl sr w w' hl hr hw hw' ihl ihr =>
    intro he
    refine Spells.readsBack (.binary hl hr hw hw') he rfl op.one_le_level ?_
    cases he with
    | binary hwl hwr hll hlr =>
      -- the left operand begins a chain, and the operator goes on with it
      have hleft := (ihl hwl).readsAt op.level op.one_le_level hll
      have hright := (ihr hwr).readsAt (op.level + 1) (Nat.le_add_left 1 _) hlr
      obtain ⟨c, cs, hsr, hc⟩ := hr.start
      have hne : sr.head? ≠ some '=' := by
        rw [hsr]
        exact fun heq => (startsExpr_cases hc).2.1 (Option.some.inj heq)
      refine hleft.extended (nested_lawful n) (chained_binary op) ⟨hwl, hll⟩ (fun t => ?_)
        fun t ht => ?_
      · simp only [List.append_assoc]
        exact stops_binary op hw _
      · simp only [List.append_assoc]
        exact extendAt_binary _ op hw hw' hr.solid hne (hright.reads t ht) l
  | @logical n op l r sl sr w w' hl hr hw hw' ihl ihr =>
    intro he
    refine Spells.readsBack (.logical hl hr hw hw') he rfl op.one_le_level ?_
    cases he with
    | logical hwl hwr hll hlr =>
      have hleft := (ihl hwl).readsAt op.level op.one_le_level hll
      have hright := (ihr hwr).readsAt (op.level + 1) (Nat.le_add_left 1 _) hlr
      refine hleft.extended (nested_lawful n) (chained_logical op) ⟨hwl, hll⟩ (fun t => ?_)
        fun t ht => ?_
      · simp only [List.append_assoc]
        exact stops_logical op hw _
      · simp only [List.append_assoc]
        exact extendAt_logical _ op hw hw' hr.solid (hright.reads t ht) l
  | @unary n op e s w h hw ih =>
    intro he
    refine Spells.readsBack (k := 9) (.unary h hw) he rfl (by decide) ?_
    cases he with
    | unary hwe hle =>
      -- the operand is one level deeper, and stops where all of it does
      have hoperand := (ih hwe).readsAt Expr.prefixLevel (by decide) hle
      refine ⟨fun t ht => ?_, fun hk => absurd hk (by decide)⟩
      simp only [List.append_assoc]
      exact prefixed_append op hw h.solid (hoperand.reads t ht)
  | conditional ht hc ha h₁ h₂ h₃ h₄ iht ihc iha =>
    intro he
    cases he with
    | conditional hwt hwc hwa hlt =>
      -- a choice binds so loosely that only the reader of expressions gives it
      have htest := (iht hwt).readsAt 1 (Nat.le_refl 1) hlt
      refine ⟨fun k hk hle => absurd hk (Nat.not_le_of_lt (Nat.lt_succ_of_le hle)), fun t hs => ?_⟩
      simp only [List.append_assoc, List.cons_append]
      exact conditional_append htest (ihc hwc) (iha hwa) hc.solid ha.solid h₁ h₂ h₃ h₄ hs
  | callNone hf hw ih =>
    intro he
    refine Spells.readsBack (k := 10) (.callNone hf hw) he rfl (by decide) ?_
    cases he with
    | call hwf hlf _ =>
      have hcallee := (ih hwf).readsAt Expr.memberLevel (by decide) hlf
      refine hcallee.accessed (nested_lawful _) ⟨hwf, hlf⟩ (.inr (.inr rfl)) fun t _ => ?_
      simp only [List.append_assoc, List.cons_append, List.nil_append]
      exact (access_call _).trans (map_of_ok _ (map_of_ok _ (tightList_nil rfl hparen _ hw t)))
  | @call n f sf a as hf has hblank ihf ihas =>
    intro he
    refine Spells.readsBack (k := 10) (.call hf has hblank) he rfl (by decide) ?_
    cases he with
    | call hwf hlf hwa =>
      have hcallee := (ihf hwf).readsAt Expr.memberLevel (by decide) hlf
      have hitems : ReadsItems (nested (n + 1)).expression (a :: as) := by
        intro b hb
        obtain ⟨hbefore, hafter⟩ := hblank b hb
        have hread := ihas b hb (hwa b.expr (List.mem_map_of_mem hb))
        exact ⟨(has b hb).start, hbefore, hafter, hread.expression⟩
      have hadv := (Reads.tightRound .callArguments (nested_lawful (n + 1)).expression).advances
      refine hcallee.accessed (nested_lawful _) ⟨hwf, hlf⟩ (.inr (.inr rfl)) fun t _ => ?_
      simp only [List.append_assoc, List.cons_append, List.nil_append]
      refine (access_call _).trans (map_of_ok _ (map_of_ok _ ?_))
      exact tightList_append hadv rfl hparen (by decide) hitems t
  | propertyNamed hb h ih =>
    intro he
    refine Spells.readsBack (k := 10) (.propertyNamed hb h) he rfl (by decide) ?_
    cases he with
    | property hwb hlb _ =>
      have hbase := (ih hwb).readsAt Expr.memberLevel (by decide) hlb
      refine hbase.accessed (nested_lawful _) ⟨hwb, hlb⟩ (.inl rfl) fun t ht => ?_
      have hread := hname h ht
      -- the name does not start with what makes the dot that of an attribute
      obtain ⟨c, cs, hid, hc, -⟩ := h
      rw [hid] at hread ⊢
      exact (access_dot hc _).trans (map_of_ok _ (map_of_ok _ (map_of_ok _ hread)))
  | propertyComputed hb he hw hw' ihb ihe =>
    intro hwritten
    refine Spells.readsBack (k := 10) (.propertyComputed hb he hw hw') hwritten rfl (by decide) ?_
    cases hwritten with
    | property hwb hlb hk =>
      have hbase := (ihb hwb).readsAt Expr.memberLevel (by decide) hlb
      refine hbase.accessed (nested_lawful _) ⟨hwb, hlb⟩ (.inr (.inl rfl)) fun t _ => ?_
      simp only [List.append_assoc, List.cons_append, List.nil_append]
      refine (access_bracket _).trans (map_of_ok _ (map_of_ok _ ?_))
      exact enclosed_append _ rfl (ihe (hk _ rfl)).expression he.solid hw hw' hbracket t
  | attributeNamed hb h ih =>
    intro he
    refine Spells.readsBack (k := 10) (.attributeNamed hb h) he rfl (by decide) ?_
    cases he with
    | attributeOf hwb hbase _ =>
      have hlb := memberLevel_le_of_canHaveAttribute hbase
      have hread := (ih hwb).readsAt Expr.memberLevel (by decide) hlb
      refine hread.accessed (nested_lawful _) ⟨hwb, hlb⟩ (.inl rfl) fun t ht => ?_
      exact (access_dots hbase _).trans (map_of_ok _ (map_of_ok _ (map_of_ok _ (hname h ht))))
  | attributeComputed hb he hw hw' ihb ihe =>
    intro hwritten
    refine Spells.readsBack (k := 10) (.attributeComputed hb he hw hw') hwritten rfl (by decide) ?_
    cases hwritten with
    | attributeOf hwb hbase hk =>
      have hlb := memberLevel_le_of_canHaveAttribute hbase
      have hread := (ihb hwb).readsAt Expr.memberLevel (by decide) hlb
      refine hread.accessed (nested_lawful _) ⟨hwb, hlb⟩ (.inl rfl) fun t _ => ?_
      simp only [List.append_assoc, List.cons_append, List.nil_append]
      refine (access_dotBracket hbase _).trans (map_of_ok _ (map_of_ok _ ?_))
      exact enclosed_append _ rfl (ihe (hk _ rfl)).expression he.solid hw hw' hbracket t
  | paren h hw hw' ih =>
    intro he
    refine Spells.readsBack (k := 11) (.paren h hw hw') he rfl (by decide) ?_
    cases he with
    | paren hwe => exact readsAt_paren (ih hwe).expression h.solid hw hw'

end Phrasebook
