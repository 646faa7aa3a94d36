/-
  Phrasebook.Proofs.Grammar.Levels
  ────────────────────────────────
  **THE READERS OF THE LEVELS, AND WHERE THEY STOP.**

  There is a reader for each level, from choices to primaries.  It stops in
  front of a text that goes on at looser levels only (`Stops`), which the
  next character tells, and the next one that is no blank:

      chain_extendAt     —  one operator, access or call more
      extendAt_none      —  none, where a level stops
      extendAt_binary, extendAt_logical
                         —  reading an operator and its right operand
      name_append, number_append
                         —  reading a name or a number
-/
import Mathlib
import Phrasebook.Proofs.Resource.Segment

namespace Phrasebook

open Phrasebook.Parser
open Phrasebook.Resource (AllBlank)

/-! ## §1. What goes on with an expression. -/

/-- The level of what goes on right behind an expression: a longer name or
number, or an access or a call. -/
def joinLevel (c : Char) : Option Nat :=
  if isNameRest c then some 11
  else if c = '.' ∨ c = '[' ∨ c = '(' then some Expr.memberLevel
  else none

/-- The level of the operators that start with a character. -/
def operatorLevel (c : Char) : Option Nat :=
  match c with
  | '?' => some 0
  | '|' => some 1
  | '&' => some 2
  | '=' | '!' => some 3
  | '<' | '>' => some 4
  | '+' | '-' => some 5
  | '%' => some 6
  | '*' => some 7
  | '/' => some 8
  | _ => none

/-- A text that goes on with an expression at levels looser than `k` only.
Operators may have blanks in front of them. -/
structure Stops (k : Nat) (t : List Char) : Prop where
  joined : ∀ c ∈ t.head?, ∀ j ∈ joinLevel c, j < k
  spaced : ∀ c ∈ (dropBlank t).head?, ∀ j ∈ operatorLevel c, j < k

theorem Stops.mono {k n : Nat} {t : List Char} (h : Stops k t) (hkn : k ≤ n) : Stops n t where
  joined c hc j hj := Nat.lt_of_lt_of_le (h.joined c hc j hj) hkn
  spaced c hc j hj := Nat.lt_of_lt_of_le (h.spaced c hc j hj) hkn

theorem isDigit_range {c : Char} (h : c.isDigit = true) : 48 ≤ c.toNat ∧ c.toNat ≤ 57 := by
  simp only [Char.isDigit, Bool.and_eq_true, decide_eq_true_eq, ge_iff_le,
    UInt32.le_iff_toNat_le] at h
  exact h

theorem isNameStart_range {c : Char} (h : isNameStart c = true) :
    (65 ≤ c.toNat ∧ c.toNat ≤ 90) ∨ (97 ≤ c.toNat ∧ c.toNat ≤ 122) ∨ c.toNat = 95 := by
  simp only [isNameStart, Char.isAlpha, Char.isUpper, Char.isLower, Bool.or_eq_true,
    Bool.and_eq_true, decide_eq_true_eq, beq_iff_eq, ge_iff_le, UInt32.le_iff_toNat_le] at h
  rcases h with (h | h) | rfl
  · exact .inl h
  · exact .inr (.inl h)
  · exact .inr (.inr rfl)

theorem isNameRest_cases {c : Char} (h : isNameRest c = true) :
    isNameStart c = true ∨ c.isDigit = true := by
  simp only [isNameRest, isNameStart, Char.isAlphanum, Bool.or_eq_true] at h ⊢
  rcases h with (h | h) | h
  · exact .inl (.inl h)
  · exact .inr h
  · exact .inl (.inr h)

/-- No blank stands in a name. -/
theorem not_isNameRest_of_isBlank {c : Char} (h : isBlank c = true) : isNameRest c = false := by
  cases hn : isNameRest c with
  | false => rfl
  | true =>
    simp only [isBlank, Bool.or_eq_true, Bool.and_eq_true, decide_eq_true_eq, beq_iff_eq] at h
    rcases isNameRest_cases hn with hn | hn
    · have hrange := isNameStart_range hn
      omega
    · have hrange := isDigit_range hn
      omega

/-- A blank goes on with nothing. -/
theorem joinLevel_of_isBlank {c : Char} (h : isBlank c = true) : joinLevel c = none := by
  unfold joinLevel
  rw [if_neg (by rw [not_isNameRest_of_isBlank h]; decide)]
  have hnot : ¬ (c = '.' ∨ c = '[' ∨ c = '(') := by
    rintro (rfl | rfl | rfl) <;> exact absurd h (by decide)
  rw [if_neg hnot]

theorem not_isNameRest_of_stops {k : Nat} {t : List Char} (h : Stops k t) (hk : k ≤ 11) :
    ∀ c ∈ t.head?, isNameRest c = false := by
  intro c hc
  cases hn : isNameRest c with
  | false => rfl
  | true =>
    have hlt := h.joined c hc 11 (if_pos hn)
    omega

/-! ## §2. Runs of characters. -/

/-- A run of characters ends in front of a text that does not go on with
it. -/
theorem span_append {test : Char → Bool} {run t : List Char} (hrun : ∀ c ∈ run, test c = true)
    (ht : ∀ c ∈ t.head?, test c = false) :
    (run ++ t).takeWhile test = run ∧ (run ++ t).dropWhile test = t := by
  rw [List.takeWhile_append_of_pos hrun, List.dropWhile_append_of_pos hrun]
  cases t with
  | nil => exact ⟨List.append_nil run, rfl⟩
  | cons c t =>
    have hc : ¬ test c = true := by rw [ht c rfl]; decide
    rw [List.takeWhile_cons_of_neg hc, List.dropWhile_cons_of_neg hc]
    exact ⟨List.append_nil run, rfl⟩

theorem dropBlank_blanks {w t : List Char} (hw : AllBlank w)
    (ht : ∀ c ∈ t.head?, isBlank c = false) : dropBlank (w ++ t) = t := by
  rw [dropBlank_of_blank hw, dropBlank_of_solid ht]

/-- Blanks are read up to the next character that is none. -/
theorem dropBlank_cons {w : List Char} (hw : AllBlank w) {c : Char} (hc : isBlank c = false)
    (t : List Char) : dropBlank (w ++ c :: t) = c :: t :=
  dropBlank_blanks hw fun _ hd => Option.some.inj hd ▸ hc

theorem dropBlank_of_not_isBlank {c : Char} (hc : isBlank c = false) (t : List Char) :
    dropBlank (c :: t) = c :: t :=
  dropBlank_cons (w := []) nofun hc t

/-- A text that starts with a character that is no blank. -/
def Solid (s : List Char) : Prop :=
  ∃ c cs, s = c :: cs ∧ isBlank c = false

theorem dropBlank_solid {w s : List Char} (hw : AllBlank w) (hs : Solid s) (t : List Char) :
    dropBlank (w ++ (s ++ t)) = s ++ t := by
  obtain ⟨c, cs, rfl, hc⟩ := hs
  exact dropBlank_cons hw hc (cs ++ t)

/-- A character stops the levels that it does not go on with, whatever blanks
are in front of it. -/
theorem stops_cons {k : Nat} {w : List Char} (hw : AllBlank w) {c : Char} (hc : isBlank c = false)
    (hjoin : ∀ j ∈ joinLevel c, j < k) (hop : ∀ j ∈ operatorLevel c, j < k) (t : List Char) :
    Stops k (w ++ c :: t) where
  joined d hd j hj := by
    cases w with
    | nil =>
      obtain rfl := Option.some.inj hd
      exact hjoin j hj
    | cons x w =>
      obtain rfl := Option.some.inj hd
      rw [joinLevel_of_isBlank (hw x List.mem_cons_self)] at hj
      exact absurd hj (Option.not_mem_none j)
  spaced d hd j hj := by
    rw [dropBlank_cons hw hc] at hd
    obtain rfl := Option.some.inj hd
    exact hop j hj

/-! ## §3. Names and numbers. -/

/-- A name: a letter or an underscore, and then these or digits. -/
def IsName (id : String) : Prop :=
  ∃ c cs, id.toList = c :: cs ∧ isNameStart c = true ∧ ∀ x ∈ cs, isNameRest x = true

theorem IsName.rest {id : String} (h : IsName id) : ∀ c ∈ id.toList, isNameRest c = true := by
  obtain ⟨c, cs, hid, hc, hcs⟩ := h
  rw [hid]
  intro x hx
  rcases List.mem_cons.1 hx with rfl | hx
  · exact isNameRest_of_isNameStart hc
  · exact hcs x hx

theorem name_append {id : String} (h : IsName id) {t : List Char}
    (ht : ∀ c ∈ t.head?, isNameRest c = false) : name (id.toList ++ t) = .ok id t := by
  obtain ⟨htake, hdrop⟩ := span_append h.rest ht
  -- the first letter lets the reader start, and the run ends with the name
  obtain ⟨c, cs, hid, hc, -⟩ := h
  have hname : name (id.toList ++ t) = .ok (String.ofList ((id.toList ++ t).takeWhile isNameRest))
      ((id.toList ++ t).dropWhile isNameRest) := by
    rw [hid]
    show (if isNameStart c = true then _ else _ : Parser String) _ = _
    rw [if_pos hc]
    rfl
  rw [hname, htake, hdrop, String.ofList_toList]

/-- Digits that an integer of 63 bits is large enough for. -/
def IsNumeral (digits : List Char) : Prop :=
  digits ≠ [] ∧ (∀ d ∈ digits, d.isDigit = true)
    ∧ (digitsValue digits : Int) ≤ Int64.maxValue.toInt

theorem isNameRest_of_isDigit {c : Char} (h : c.isDigit = true) : isNameRest c = true := by
  simp only [isNameRest, Char.isAlphanum, Bool.or_eq_true]
  exact .inl (.inr h)

theorem number_append {digits : List Char} (h : IsNumeral digits) {t : List Char}
    (ht : ∀ c ∈ t.head?, isNameRest c = false) :
    number (digits ++ t) = .ok (Int64.ofNat (digitsValue digits)) t := by
  have hend : ∀ c ∈ t.head?, c.isDigit = false := by
    intro c hc
    cases hd : c.isDigit with
    | false => rfl
    | true => exact absurd (isNameRest_of_isDigit hd) (by rw [ht c hc]; decide)
  obtain ⟨-, hdigits, hmax⟩ := h
  obtain ⟨htake, hdrop⟩ := span_append hdigits hend
  unfold number
  dsimp only
  rw [htake, if_pos hmax, hdrop]

/-! ## §4. The readers of the levels. -/

/-- The reader of each level. -/
def readerAt (inner : Nested) : Nat → Parser Expr
  | 0 => conditional inner
  | 1 => disjunction inner
  | 2 => conjunction inner
  | 3 => equality inner
  | 4 => relation inner
  | 5 => sum inner
  | 6 => modulo inner
  | 7 => product inner
  | 8 => quotient inner
  | 9 => prefixed inner
  | 10 => member inner
  | _ => base inner

/-- How an expression is read on at each level: by an operator and its right
operand, or by an access or a call. -/
def extendAt (inner : Nested) : Nat → Expr → Parser (Option Expr)
  | 1 => grouping [(LogicalOp.or.symbol, .or)] .logical (conjunction inner)
  | 2 => grouping [(LogicalOp.and.symbol, .and)] .logical (equality inner)
  | 3 => grouping (symbols [.equal, .notEqual]) .binary (relation inner)
  | 4 => grouping (symbols [.lessEqual, .greaterEqual, .less, .greater]) .binary (sum inner)
  | 5 => grouping (symbols [.add, .subtract]) .binary (modulo inner)
  | 6 => grouping (symbols [.remainder]) .binary (product inner)
  | 7 => grouping (symbols [.multiply]) .binary (quotient inner)
  | 8 => grouping (symbols [.divide]) .binary (prefixed inner)
  | _ => access inner

/-- The levels that are chains of operands of the next level. -/
def Chained (k : Nat) : Prop :=
  k ∈ [1, 2, 3, 4, 5, 6, 7, 8, 10]

instance (k : Nat) : Decidable (Chained k) :=
  inferInstanceAs (Decidable (k ∈ [1, 2, 3, 4, 5, 6, 7, 8, 10]))

theorem chained_binary (op : BinaryOp) : Chained op.level := by
  cases op <;> decide

theorem chained_logical (op : LogicalOp) : Chained op.level := by
  cases op <;> decide

section

variable (inner : Nested) {k : Nat}

theorem readerAt_chained (hk : Chained k) :
    readerAt inner k = readerAt inner (k + 1) >>= chain (extendAt inner k) := by
  simp only [Chained, List.mem_cons, List.not_mem_nil, or_false] at hk
  rcases hk with rfl | rfl | rfl | rfl | rfl | rfl | rfl | rfl | rfl <;> rfl

/-- Where a level stops none of its operators is ahead. -/
theorem firstOperator_eq_none {ω : Type} {ops : List (String × ω)} {t : List Char}
    (hops : ∀ x ∈ ops, x.1.toList.head?.bind operatorLevel = some k) (ht : Stops k t) :
    firstOperator ops (dropBlank t) = none := by
  rw [firstOperator_eq_none_iff]
  intro x hx
  obtain ⟨c, hc, hlevel⟩ := Option.bind_eq_some_iff.1 (hops x hx)
  obtain ⟨symbol, hsymbol⟩ := List.head?_eq_some_iff.1 hc
  rw [hsymbol]
  cases ha : after? (c :: symbol) (dropBlank t) with
  | none => rfl
  | some r =>
    have hhead : (dropBlank t).head? = some c := by
      rw [after?_eq_some_iff.1 ha]
      rfl
    exact absurd (ht.spaced c hhead k hlevel) (Nat.lt_irrefl k)

theorem grouping_none {ω : Type} {ops : List (String × ω)} {build : ω → Expr → Expr → Expr}
    {operand : Parser Expr} {t : List Char}
    (hops : ∀ x ∈ ops, x.1.toList.head?.bind operatorLevel = some k)
    (ht : Stops k t) (e : Expr) : grouping ops build operand e t = .ok none t := by
  have hop : operator ops t = .ok none t := by
    unfold operator
    rw [firstOperator_eq_none hops ht]
  unfold grouping
  rw [bind_apply, hop]
  rfl

theorem after?_eq_none {c d : Char} (h : c ≠ d) (symbol t : List Char) :
    after? (c :: symbol) (d :: t) = none :=
  if_neg h

/-- What an access or a call is told by. -/
theorem access_apply (e : Expr) (s : List Char) :
    access inner e s
      = if (after? "..".toList s).isSome || (after? ".[".toList s).isSome then
          (some <$> attributeAccess inner e) s
        else if (after? ".".toList s).isSome || (after? "[".toList s).isSome then
          (some <$> propertyAccess inner e) s
        else if (after? "(".toList s).isSome then (some <$> callOf inner e) s
        else .ok none s := by
  unfold access
  show (if ((after? "..".toList s).isSome || (after? ".[".toList s).isSome) = true then
      some <$> attributeAccess inner e
    else if ((after? ".".toList s).isSome || (after? "[".toList s).isSome) = true then
      some <$> propertyAccess inner e
    else if (after? "(".toList s).isSome = true then some <$> callOf inner e
    else pure none : Parser (Option Expr)) s = _
  split
  · rfl
  · split
    · rfl
    · split <;> rfl

theorem access_none {t : List Char} (ht : Stops Expr.memberLevel t) (e : Expr) :
    access inner e t = .ok none t := by
  -- what an access starts with is not the next character
  have hnot : ∀ c symbol, joinLevel c = some Expr.memberLevel → after? (c :: symbol) t = none := by
    intro c symbol hc
    cases t with
    | nil => rfl
    | cons d t =>
      refine after?_eq_none (fun heq => ?_) symbol t
      subst heq
      exact absurd (ht.joined c rfl _ hc) (Nat.lt_irrefl _)
  have hdots : after? "..".toList t = none := hnot '.' ['.'] rfl
  have hdotBracket : after? ".[".toList t = none := hnot '.' ['['] rfl
  have hdot : after? ".".toList t = none := hnot '.' [] rfl
  have hbracket : after? "[".toList t = none := hnot '[' [] rfl
  have hcall : after? "(".toList t = none := hnot '(' [] rfl
  rw [access_apply, hdots, hdotBracket, hdot, hbracket, hcall]
  rfl

/-- Where a level stops nothing of it is read. -/
theorem extendAt_none (hk : Chained k) {t : List Char} (ht : Stops k t) (e : Expr) :
    extendAt inner k e t = .ok none t := by
  simp only [Chained, List.mem_cons, List.not_mem_nil, or_false] at hk
  rcases hk with rfl | rfl | rfl | rfl | rfl | rfl | rfl | rfl | rfl
  case inr.inr.inr.inr.inr.inr.inr.inr => exact access_none inner ht e
  all_goals exact grouping_none (by decide) ht e

/-! ## §5. Reading on. -/

/-- An operator between blanks, and its right operand, are read at its
level. -/
theorem grouping_some {ω : Type} {ops : List (String × ω)} {build : ω → Expr → Expr → Expr}
    {operand : Parser Expr} {op : ω} {symbol w w' s t : List Char} {r : Expr}
    (hsymbol : Solid symbol)
    (hop : firstOperator ops (symbol ++ (w' ++ (s ++ t))) = some (op, w' ++ (s ++ t)))
    (hw : AllBlank w) (hw' : AllBlank w') (hs : Solid s) (hr : operand (s ++ t) = .ok r t)
    (l : Expr) :
    grouping ops build operand l (w ++ (symbol ++ (w' ++ (s ++ t))))
      = .ok (some (build op l r)) t := by
  have hread : operator ops (w ++ (symbol ++ (w' ++ (s ++ t)))) = .ok (some op) (w' ++ (s ++ t)) := by
    unfold operator
    rw [dropBlank_solid hw hsymbol, hop]
  unfold grouping
  rw [bind_apply, hread]
  show ((operand >>= fun right => pure (some (build op l right)) : Parser (Option Expr))
    (dropBlank (w' ++ (s ++ t)))) = _
  rw [dropBlank_solid hw' hs, bind_apply, hr]
  rfl

/-- The operators of a level on two computed operands. -/
def operatorsAt : Nat → List BinaryOp
  | 3 => [.equal, .notEqual]
  | 4 => [.lessEqual, .greaterEqual, .less, .greater]
  | 5 => [.add, .subtract]
  | 6 => [.remainder]
  | 7 => [.multiply]
  | 8 => [.divide]
  | _ => []

theorem firstOperator_cons_of_none {ω : Type} {symbol : String} {op : ω} {ops : List (String × ω)}
    {s : List Char} (h : after? symbol.toList s = none) :
    firstOperator ((symbol, op) :: ops) s = firstOperator ops s := by
  rw [firstOperator, h]

/-- An operator is told from the others of its level, unless it is the
beginning of one. -/
theorem firstOperator_symbol (op : BinaryOp) {u : List Char} (hu : after? ['='] u = none) :
    firstOperator (symbols (operatorsAt op.level)) (op.symbol.toList ++ u) = some (op, u) := by
  cases op
  case less =>
    have hlonger : after? "<=".toList ("<".toList ++ u) = none := hu
    exact (firstOperator_cons_of_none hlonger).trans rfl
  case greater =>
    have hother : after? "<=".toList (">".toList ++ u) = none := rfl
    have hlonger : after? ">=".toList (">".toList ++ u) = none := hu
    exact (firstOperator_cons_of_none hother).trans
      ((firstOperator_cons_of_none hlonger).trans rfl)
  all_goals rfl

/-- No right operand starts with `=`, so that `<` is not taken for `<=`. -/
theorem extendAt_binary (op : BinaryOp) {w w' s t : List Char} {r : Expr} (hw : AllBlank w)
    (hw' : AllBlank w') (hs : Solid s) (hne : s.head? ≠ some '=')
    (hr : readerAt inner (op.level + 1) (s ++ t) = .ok r t) (l : Expr) :
    extendAt inner op.level l (w ++ (op.symbol.toList ++ (w' ++ (s ++ t))))
      = .ok (some (.binary op l r)) t := by
  have hnext : after? ['='] (w' ++ (s ++ t)) = none := by
    obtain ⟨c, cs, rfl, -⟩ := hs
    cases w' with
    | nil => exact after?_eq_none (fun heq => hne (congrArg some heq.symm)) [] _
    | cons b w' =>
      refine after?_eq_none (fun heq => ?_) [] _
      subst heq
      exact absurd (hw' _ List.mem_cons_self) (by decide)
  have hsymbol : Solid op.symbol.toList := by
    cases op <;> exact ⟨_, _, rfl, rfl⟩
  have hextend : extendAt inner op.level
      = grouping (symbols (operatorsAt op.level)) .binary (readerAt inner (op.level + 1)) := by
    cases op <;> rfl
  rw [hextend]
  exact grouping_some hsymbol (firstOperator_symbol op hnext) hw hw' hs hr l

theorem extendAt_logical (op : LogicalOp) {w w' s t : List Char} {r : Expr} (hw : AllBlank w)
    (hw' : AllBlank w') (hs : Solid s)
    (hr : readerAt inner (op.level + 1) (s ++ t) = .ok r t) (l : Expr) :
    extendAt inner op.level l (w ++ (op.symbol.toList ++ (w' ++ (s ++ t))))
      = .ok (some (.logical op l r)) t := by
  have hsymbol : Solid op.symbol.toList := by
    cases op <;> exact ⟨_, _, rfl, rfl⟩
  have hextend : extendAt inner op.level
      = grouping [(op.symbol, op)] .logical (readerAt inner (op.level + 1)) := by
    cases op <;> rfl
  have hop : firstOperator [(op.symbol, op)] (op.symbol.toList ++ (w' ++ (s ++ t)))
      = some (op, w' ++ (s ++ t)) := by
    unfold firstOperator
    rw [after?_eq_some_iff.2 rfl]
  rw [hextend]
  exact grouping_some hsymbol hop hw hw' hs hr l

/-- What has been read at a level is the beginning of what is read on. -/
theorem chain_extendAt {inner : Nested} (hin : inner.Lawful) (hk : Chained k) {e e' : Expr}
    (he : e.WrittenAt k) {s t : List Char} (h : extendAt inner k e s = .ok (some e') t) :
    chain (extendAt inner k) e s = chain (extendAt inner k) e' t := by
  -- at levels of operators every round advances, whatever its left operand is
  have hgrouping : ∀ {ω : Type} {ops : List (String × ω)} {build : ω → Expr → Expr → Expr}
      {operand : Parser Expr} {P : Expr → Prop}, SafeOperators ops → Reads 0 operand P →
      grouping ops build operand e s = .ok (some e') t →
      chain (grouping ops build operand) e s = chain (grouping ops build operand) e' t :=
    fun hops hoperand hread => chain_some (P := fun _ => True)
      (fun left _ => grouping_advances _ hops hoperand left) (fun _ _ => trivial) trivial hread
  simp only [Chained, List.mem_cons, List.not_mem_nil, or_false] at hk
  rcases hk with rfl | rfl | rfl | rfl | rfl | rfl | rfl | rfl | rfl
  · exact hgrouping (by decide) (conjunction_reads hin) h
  · exact hgrouping (by decide) (equality_reads hin) h
  · exact hgrouping (by decide) (relation_reads hin) h
  · exact hgrouping (by decide) (sum_reads hin) h
  · exact hgrouping (by decide) (modulo_reads hin) h
  · exact hgrouping (by decide) (product_reads hin) h
  · exact hgrouping (by decide) (quotient_reads hin) h
  · exact hgrouping (by decide) (prefixed_reads hin) h
  · exact chain_some (P := Expr.WrittenAt Expr.memberLevel) (fun _ => access_advances hin)
      (fun ha hread => ((access_reads hin ha).result hread).1 _ rfl) he h

end

end Phrasebook
