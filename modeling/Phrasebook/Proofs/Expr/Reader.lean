/-
  Phrasebook.Proofs.Expr.Reader
  ────────────────────────────────
  **EXPRESSION READERS KEEP THE LAWS OF READERS.**

  One lemma per reader of the grammar, from literals up to choices, each from
  those of the readers it is built from.  What a reader gives is a written
  tree that binds as tightly as the level of the reader says:

      Nested.Lawful    —  the laws of the readers of the next nesting level
      nested_lawful    —  they hold at every level, by induction on how many
                          levels are left
-/
import Phrasebook.Proofs.Expr.Operator
import Phrasebook.Proofs.Expr.Written
import Phrasebook.Proofs.Parser.Token

namespace Phrasebook

open Phrasebook.Parser

/-! ## §1. What the readers give. -/

namespace Expr

/-- A written tree that binds at least as tightly as a level. -/
def WrittenAt (n : Nat) (e : Expr) : Prop :=
  e.Written ∧ n ≤ e.level

/-- A written text, array or hash. -/
def WrittenLiteral (e : Expr) : Prop :=
  e.Written ∧ e.isLiteral = true

theorem WrittenAt.mono {n k : Nat} {e : Expr} (h : e.WrittenAt n) (hk : k ≤ n) :
    e.WrittenAt k :=
  ⟨h.1, Nat.le_trans hk h.2⟩

theorem WrittenLiteral.at {e : Expr} (h : e.WrittenLiteral) : e.WrittenAt 11 :=
  ⟨h.1, Nat.le_of_eq (level_of_isLiteral h.2).symm⟩

end Expr

/-- The laws of the readers of a nesting level. -/
structure Nested.Lawful (inner : Nested) : Prop where
  expression : Reads 0 inner.expression Expr.Written
  operand : Reads 0 inner.operand (Expr.WrittenAt Expr.prefixLevel)
  literal : Reads 1 inner.literal Expr.WrittenLiteral

section

variable {inner : Nested} (hin : inner.Lawful)

/-! ## §2. Texts. -/

/-- A placed expression of a text is a written tree. -/
def Piece.Written : Piece → Prop
  | .chars _ => True
  | .placed e => e.Written

theorem single_reads (missed : Expected) :
    Reads 1 (piece.single missed) fun o => ∀ p ∈ o, p.Written where
  suffix s := by
    cases s with
    | nil => exact List.suffix_refl []
    | cons c r => exact List.suffix_cons c r
  result {s a r} h := by
    cases s with
    | nil => exact nomatch h
    | cons c s =>
      cases h
      refine ⟨fun p hp => ?_, Nat.le_refl _⟩
      obtain rfl := Option.some.inj hp
      exact trivial
  steady {a c m t} t' hm h := by
    cases c with
    | nil =>
      obtain ⟨x, m, rfl⟩ := List.exists_cons_of_ne_nil hm.ne_nil
      have hr : m ++ t = x :: (m ++ t) := (Outcome.ok.inj h).2
      have hlen := congrArg List.length hr
      rw [List.length_cons] at hlen
      omega
    | cons x c =>
      obtain ⟨ha, hr⟩ := Outcome.ok.inj h
      obtain rfl : c = [] := List.append_left_eq_self.1 hr
      rw [← ha]
      rfl

include hin in
theorem piece_reads {quote : String} (hq : Safe quote.toList) (hlen : 1 ≤ quote.toList.length) :
    Reads 1 (piece inner quote) fun o => ∀ p ∈ o, p.Written := by
  refine .eat_then hq hlen (.pure nofun) ?_
  refine .eat_then (by decide) (by decide) ?_ ?_
  · -- a backslash, and what it escapes
    refine .bind (.eat (by decide)) fun braces _ => .ite (fun _ => .pure ?_) fun _ => ?_
    · intro p hp
      obtain rfl := Option.some.inj hp
      exact trivial
    · exact (single_reads _).atLeast (Nat.zero_le _)
  · -- a placed expression, or any other character
    refine .eat_then (by decide) (by decide) ?_ (single_reads _)
    refine .bind .blank fun _ _ => .bind hin.expression fun e he => ?_
    refine .bind .blank fun _ _ => .bind (.exactly _) fun _ _ => .pure ?_
    intro p hp
    obtain rfl := Option.some.inj hp
    exact he

theorem mem_flush {run : List Char} {others : List Expr} {e : Expr}
    (h : e ∈ Piece.parts.flush run others) : (∃ t, e = .text t) ∨ e ∈ others := by
  unfold Piece.parts.flush at h
  split at h
  · exact .inr h
  · rcases List.mem_cons.1 h with rfl | h
    · exact .inl ⟨_, rfl⟩
    · exact .inr h

theorem mem_split {pieces : List Piece} {e : Expr} (h : e ∈ (Piece.parts.split pieces).2) :
    (∃ t, e = .text t) ∨ .placed e ∈ pieces := by
  induction pieces with
  | nil => exact absurd h List.not_mem_nil
  | cons p ps ih =>
    cases p with
    | chars cs => exact (ih h).imp_right (List.mem_cons_of_mem _)
    | placed e' =>
      rcases List.mem_cons.1 h with rfl | h
      · exact .inr List.mem_cons_self
      · exact (mem_flush h).elim .inl fun h => (ih h).imp_right (List.mem_cons_of_mem _)

/-- A part of a text is plain, or has been placed. -/
theorem mem_parts {pieces : List Piece} {e : Expr} (h : e ∈ Piece.parts pieces) :
    (∃ t, e = .text t) ∨ .placed e ∈ pieces :=
  (mem_flush h).elim .inl mem_split

theorem parts_written {pieces : List Piece} (h : ∀ p ∈ pieces, p.Written) :
    ∀ e ∈ Piece.parts pieces, e.Written := by
  intro e he
  rcases mem_parts he with ⟨t, rfl⟩ | hplaced
  · exact .text t
  · exact h (.placed e) hplaced

theorem ofParts_written {parts : List Expr} (h : ∀ e ∈ parts, e.Written) :
    (Expr.ofParts parts).WrittenLiteral := by
  unfold Expr.ofParts
  split
  · exact ⟨.text _, rfl⟩
  · exact ⟨.text _, rfl⟩
  · exact ⟨.template h, rfl⟩

include hin in
theorem quoted_reads {quote : String} (hq : Safe quote.toList)
    (hlen : 1 ≤ quote.toList.length) : Reads 1 (quoted inner quote) Expr.WrittenLiteral := by
  have hpieces := Reads.collect (piece_reads hin hq hlen) (piece_reads hin hq hlen).advances
  refine .bind (.exactly _) fun _ _ => .bind_left hpieces fun pieces hps => .pure ?_
  exact ofParts_written (parts_written hps)

theorem verbatim_reads {quote : String} (hq : Safe quote.toList)
    (hlen : 1 ≤ quote.toList.length) : Reads 1 (verbatim quote) Expr.WrittenLiteral := by
  refine .bind (.exactly _) fun _ _ => .bind (.upTo hq) fun content _ => ?_
  exact .bind_left ((Reads.exactly quote).atLeast hlen) fun _ _ =>
    .pure ⟨.text _, rfl⟩

include hin in
theorem textLiteral_reads : Reads 1 (textLiteral inner) Expr.WrittenLiteral := by
  refine .bind (.isAhead (by decide)) fun _ _ => .bind (.isAhead (by decide)) fun _ _ =>
    .bind (.isAhead (by decide)) fun _ _ => ?_
  refine .ite (fun _ => verbatim_reads (by decide) (by decide)) fun _ => ?_
  refine .ite (fun _ => verbatim_reads (by decide) (by decide)) fun _ => ?_
  exact .ite (fun _ => quoted_reads hin (by decide) (by decide)) fun _ =>
    quoted_reads hin (by decide) (by decide)

/-! ## §3. Arrays and hashes. -/

include hin in
theorem element_reads :
    Reads 1 (element inner) fun w => w.2.WrittenLiteral :=
  .bind (.eat (by decide)) fun _ _ => .bind_left hin.literal fun _ he => .pure he

include hin in
theorem field_reads (starred : Bool) :
    Reads 1 (field inner starred) fun f => f.value.WrittenLiteral :=
  .bind_left .name fun _ _ => .bind .blank fun _ _ => .bind (.exactly _) fun _ _ =>
    .bind .blank fun _ _ => .bind hin.literal fun _ he => .pure he

include hin in
theorem hashItem_reads : Reads 1 (hashItem inner) fun f => f.value.WrittenLiteral :=
  .bind (.eat (by decide)) fun _ _ => field_reads hin _

include hin in
theorem arrayLiteral_reads : Reads 1 (arrayLiteral inner) Expr.WrittenLiteral := by
  refine .bind (.exactly _) fun _ _ =>
    .bind_left (.looseList .array (element_reads hin)) fun written hw => .pure ⟨?_, rfl⟩
  exact .array (fun w hmem => (hw w hmem).1) fun w hmem => (hw w hmem).2

include hin in
theorem hashLiteral_reads : Reads 1 (hashLiteral inner) Expr.WrittenLiteral := by
  refine .bind (.exactly _) fun _ _ =>
    .bind_left (.looseList .hash (hashItem_reads hin)) fun written hw => .pure ⟨?_, rfl⟩
  exact .hash (fun f hmem => (hw f hmem).1) fun f hmem => (hw f hmem).2

include hin in
theorem literal_reads : Reads 1 (literal inner) Expr.WrittenLiteral := by
  refine .bind (.ahead fun _ _ _ => rfl) fun _ _ => .bind (.isAhead (by decide)) fun _ _ =>
    .bind (.isAhead (by decide)) fun _ _ => ?_
  refine .ite (fun _ => textLiteral_reads hin) fun _ => ?_
  refine .ite (fun _ => arrayLiteral_reads hin) fun _ => ?_
  exact .ite (fun _ => hashLiteral_reads hin) fun _ => .stop _

/-! ## §4. Primaries, accesses and calls. -/

include hin in
theorem parenthesis_reads : Reads 0 (parenthesis inner) (Expr.WrittenAt 11) :=
  .bind .blank fun _ _ => .bind hin.expression fun _ he => .bind .blank fun _ _ =>
    .bind (.exactly _) fun _ _ => .pure ⟨.paren he, Nat.le_refl _⟩

include hin in
theorem primary_reads : Reads 0 (primary inner) (Expr.WrittenAt 11) := by
  refine .bind (.ahead fun _ _ _ => rfl) fun _ _ => .bind (.ahead fun _ _ _ => rfl) fun _ _ => ?_
  refine .ite (fun _ => ?_) fun _ => .ite (fun _ => ?_) fun _ => ?_
  · exact .bind .number fun n _ => .pure ⟨.number n, Nat.le_refl _⟩
  · exact hin.literal.mono (fun _ he => he.at) (Nat.zero_le _)
  · -- a variable, a global or a name
    refine .bind (.eat (by decide)) fun _ _ => .ite (fun _ => ?_) fun _ => ?_
    · exact .bind .name fun id _ => .pure ⟨.var id, Nat.le_refl _⟩
    · refine .bind (.eat (by decide)) fun _ _ => .ite (fun _ => ?_) fun _ => ?_
      · exact .bind .name fun id _ => .pure ⟨.global id, Nat.le_refl _⟩
      · exact .bind .name fun id _ => .pure ⟨.name id, Nat.le_refl _⟩

include hin in
theorem base_reads : Reads 0 (base inner) (Expr.WrittenAt 11) :=
  .bind (.eat (by decide)) fun _ _ =>
    .ite (fun _ => parenthesis_reads hin) fun _ => primary_reads hin

/-- The expression of a computed key is a written tree. -/
def WrittenKey (k : Accessor Expr) : Prop :=
  ∀ e, k = .computed e → e.Written

include hin in
theorem bracketed_reads : Reads 0 (bracketed inner) WrittenKey := by
  refine .bind .blank fun _ _ => .bind hin.expression fun e he => .bind .blank fun _ _ =>
    .bind (.exactly _) fun _ _ => .pure fun e' heq => ?_
  obtain rfl := Accessor.computed.inj heq
  exact he

theorem namedKey_reads : Reads 0 namedKey WrittenKey :=
  .bind .name fun _ _ => .pure nofun

include hin in
theorem attributeAccess_reads {e : Expr} (he : e.Written) :
    Reads 1 (attributeAccess inner e) (Expr.WrittenAt Expr.memberLevel) := by
  -- the reader makes the check of definitions, and stops where that fails
  refine .ite (fun hbase => ?_) fun _ => .stop _
  have hkey : ∀ k, WrittenKey k →
      (Expr.attribute e k).WrittenAt Expr.memberLevel := fun k hk =>
    ⟨.attributeOf he hbase hk, Nat.le_refl _⟩
  refine .eat_then (by decide) (by decide) ?_ ?_
  · exact .bind_left namedKey_reads fun k hk => .pure (hkey k hk)
  · refine .bind_left ((Reads.exactly _).atLeast (by decide)) fun _ _ => ?_
    exact .bind (bracketed_reads hin) fun k hk => .pure (hkey k hk)

include hin in
theorem propertyAccess_reads {e : Expr} (he : e.WrittenAt Expr.memberLevel) :
    Reads 1 (propertyAccess inner e) (Expr.WrittenAt Expr.memberLevel) := by
  have hkey : ∀ k, WrittenKey k →
      (Expr.property e k).WrittenAt Expr.memberLevel := fun k hk =>
    ⟨.property he.1 he.2 hk, Nat.le_refl _⟩
  refine .eat_then (by decide) (by decide) ?_ ?_
  · exact .bind_left namedKey_reads fun k hk => .pure (hkey k hk)
  · refine .bind_left ((Reads.exactly _).atLeast (by decide)) fun _ _ => ?_
    exact .bind (bracketed_reads hin) fun k hk => .pure (hkey k hk)

include hin in
theorem callOf_reads {e : Expr} (he : e.WrittenAt Expr.memberLevel) :
    Reads 1 (callOf inner e) (Expr.WrittenAt Expr.memberLevel) :=
  .bind (.exactly _) fun _ _ => .bind_left (.tightList .callArguments hin.expression)
    fun _ hargs => .pure ⟨.call he.1 he.2 hargs, Nat.le_refl _⟩

theorem some_reads {α : Type} {n : Nat} {p : Parser α} {P : α → Prop} (hp : Reads n p P) :
    Reads n (some <$> p) fun o => ∀ a ∈ o, P a :=
  hp.map fun _ ha _ hb => Option.some.inj hb ▸ ha

include hin in
theorem access_reads {e : Expr} (he : e.WrittenAt Expr.memberLevel) :
    Reads 0 (access inner e) fun o => ∀ e' ∈ o, e'.WrittenAt Expr.memberLevel := by
  refine .bind (.isAhead (by decide)) fun _ _ => .bind (.isAhead (by decide)) fun _ _ =>
    .bind (.isAhead (by decide)) fun _ _ => .bind (.isAhead (by decide)) fun _ _ =>
    .bind (.isAhead (by decide)) fun _ _ => ?_
  refine .ite (fun _ => ?_) fun _ => .ite (fun _ => ?_) fun _ => .ite (fun _ => ?_) fun _ =>
    .pure nofun
  · exact (some_reads (attributeAccess_reads hin he.1)).atLeast (Nat.zero_le _)
  · exact (some_reads (propertyAccess_reads hin he)).atLeast (Nat.zero_le _)
  · exact (some_reads (callOf_reads hin he)).atLeast (Nat.zero_le _)

include hin in
theorem access_advances {e : Expr} (he : e.WrittenAt Expr.memberLevel) :
    Advances (access inner e) := by
  refine Advances.bind (.isAhead (by decide)) fun _ _ => Advances.bind (.isAhead (by decide))
    fun _ _ => Advances.bind (.isAhead (by decide)) fun _ _ =>
    Advances.bind (.isAhead (by decide)) fun _ _ => Advances.bind (.isAhead (by decide))
    fun _ _ => ?_
  refine Advances.ite (fun _ => ?_) fun _ => Advances.ite (fun _ => ?_) fun _ =>
    Advances.ite (fun _ => ?_) fun _ => Advances.none
  · exact (some_reads (attributeAccess_reads hin he.1)).advances
  · exact (some_reads (propertyAccess_reads hin he)).advances
  · exact (some_reads (callOf_reads hin he)).advances

include hin in
theorem member_reads : Reads 0 (member inner) (Expr.WrittenAt Expr.memberLevel) :=
  .bind (base_reads hin) fun _ he =>
    .chain (fun _ => access_reads hin) (fun _ => access_advances hin) (he.mono (by decide))

/-! ## §5. Operators. -/

include hin in
theorem prefixed_reads : Reads 0 (prefixed inner) (Expr.WrittenAt Expr.prefixLevel) := by
  have hunary : ∀ op e, e.WrittenAt Expr.prefixLevel →
      (Expr.unary op e).WrittenAt Expr.prefixLevel := fun _ _ he =>
    ⟨.unary he.1 he.2, Nat.le_refl _⟩
  refine .bind (.eat (by decide)) fun _ _ => .ite (fun _ => ?_) fun _ => ?_
  · exact hin.operand.map (hunary _)
  refine .bind (.eat (by decide)) fun _ _ => .ite (fun _ => ?_) fun _ => ?_
  · exact hin.operand.map (hunary _)
  refine .bind (.eat (by decide)) fun _ _ => .ite (fun _ => ?_) fun _ => ?_
  · exact hin.operand.map (hunary _)
  exact (member_reads hin).mono (fun _ he => he.mono (by decide)) (Nat.le_refl _)

end

/-! ## §6. Levels of operators. -/

/-- Read an operator and its right operand, behind a left one. -/
def grouping {ω : Type} (ops : List (String × ω)) (build : ω → Expr → Expr → Expr)
    (operand : Parser Expr) (left : Expr) : Parser (Option Expr) := do
  match ← operator ops with
  | none => pure none
  | some op => do
    blank
    let right ← operand
    pure (some (build op left right))

theorem grouping_advances {ω : Type} {ops : List (String × ω)} (build : ω → Expr → Expr → Expr)
    {operand : Parser Expr} {P : Expr → Prop} (hops : SafeOperators ops)
    (hoperand : Reads 0 operand P) (left : Expr) : Advances (grouping ops build operand left) := by
  intro s e r h
  obtain ⟨o, q, hop, hlater⟩ := bind_eq_ok h
  cases o with
  | none => exact nomatch (Outcome.ok.inj hlater).1
  | some op =>
    -- the operator has been read, and what follows puts nothing back
    have hlt := operator_advances hops hop
    have hrest : Reads 0 (do
        blank
        let right ← operand
        pure (some (build op left right)) : Parser (Option Expr)) fun _ => True :=
      .bind .blank fun _ _ => .bind hoperand fun _ _ => .pure trivial
    have hle := (hrest.suffix_ok hlater).length_le
    omega

/-- One level of operators: its left operands are of its own level, its right
ones of the next. -/
theorem leftGrouped_reads {ω : Type} {ops : List (String × ω)} {build : ω → Expr → Expr → Expr}
    {operand : Parser Expr} {k n : Nat} (hops : SafeOperators ops) (hkn : k ≤ n)
    (hoperand : Reads 0 operand (Expr.WrittenAt n))
    (hbuild : ∀ op ∈ ops.map Prod.snd, ∀ l r, l.WrittenAt k → r.WrittenAt n →
      (build op l r).WrittenAt k) :
    Reads 0 (leftGrouped ops build operand) (Expr.WrittenAt k) := by
  have hadv : ∀ left, left.WrittenAt k → Advances (grouping ops build operand left) :=
    fun left _ => grouping_advances build hops hoperand left
  refine .bind hoperand fun first hfirst => .chain (n := 0) ?_ hadv (hfirst.mono hkn)
  -- what has been read so far is of this level, and becomes a left operand
  intro left hleft
  refine .bind (operator_reads hops) fun o ho => ?_
  cases o with
  | none => exact .pure nofun
  | some op =>
    refine .bind .blank fun _ _ => .bind hoperand fun right hright => .pure fun e he => ?_
    obtain rfl := Option.some.inj he
    exact hbuild op (ho op rfl) left right hleft hright

theorem binary_reads {ops : List BinaryOp} {operand : Parser Expr} {k : Nat}
    (hops : SafeOperators (symbols ops)) (hlevel : ∀ op ∈ ops, op.level = k)
    (hoperand : Reads 0 operand (Expr.WrittenAt (k + 1))) :
    Reads 0 (leftGrouped (symbols ops) .binary operand) (Expr.WrittenAt k) := by
  refine leftGrouped_reads hops (Nat.le_succ k) hoperand fun op hop l r hl hr => ?_
  have hk : op.level = k := by
    obtain ⟨x, hx, rfl⟩ := List.mem_map.1 hop
    obtain ⟨op', hop', rfl⟩ := List.mem_map.1 hx
    exact hlevel op' hop'
  exact ⟨.binary hl.1 hr.1 (hk ▸ hl.2) (hk ▸ hr.2), Nat.le_of_eq hk.symm⟩

theorem logical_reads (op : LogicalOp) {operand : Parser Expr}
    (hops : SafeOperators [(op.symbol, op)])
    (hoperand : Reads 0 operand (Expr.WrittenAt (op.level + 1))) :
    Reads 0 (leftGrouped [(op.symbol, op)] .logical operand) (Expr.WrittenAt op.level) := by
  refine leftGrouped_reads hops (Nat.le_succ _) hoperand fun op' hop l r hl hr => ?_
  obtain rfl := List.mem_singleton.1 hop
  exact ⟨.logical hl.1 hr.1 hl.2 hr.2, Nat.le_refl _⟩

section

variable {inner : Nested} (hin : inner.Lawful)

include hin in
theorem quotient_reads : Reads 0 (quotient inner) (Expr.WrittenAt 8) :=
  binary_reads (by decide) (by decide) (prefixed_reads hin)

include hin in
theorem product_reads : Reads 0 (product inner) (Expr.WrittenAt 7) :=
  binary_reads (by decide) (by decide) (quotient_reads hin)

include hin in
theorem modulo_reads : Reads 0 (modulo inner) (Expr.WrittenAt 6) :=
  binary_reads (by decide) (by decide) (product_reads hin)

include hin in
theorem sum_reads : Reads 0 (sum inner) (Expr.WrittenAt 5) :=
  binary_reads (by decide) (by decide) (modulo_reads hin)

include hin in
theorem relation_reads : Reads 0 (relation inner) (Expr.WrittenAt 4) :=
  binary_reads (by decide) (by decide) (sum_reads hin)

include hin in
theorem equality_reads : Reads 0 (equality inner) (Expr.WrittenAt 3) :=
  binary_reads (by decide) (by decide) (relation_reads hin)

include hin in
theorem conjunction_reads : Reads 0 (conjunction inner) (Expr.WrittenAt 2) :=
  logical_reads .and (by decide) (equality_reads hin)

include hin in
theorem disjunction_reads : Reads 0 (disjunction inner) (Expr.WrittenAt 1) :=
  logical_reads .or (by decide) (conjunction_reads hin)

include hin in
theorem conditional_reads : Reads 0 (conditional inner) Expr.Written := by
  refine .bind (disjunction_reads hin) fun t ht => .bind .blank fun _ _ =>
    .bind (.eat (by decide)) fun _ _ => .ite (fun _ => ?_) fun _ => .pure ht.1
  refine .bind .blank fun _ _ => .bind hin.expression fun c hc => .bind .blank fun _ _ =>
    .bind (.exactly _) fun _ _ => .bind .blank fun _ _ => .bind hin.expression fun a ha => ?_
  exact .pure (.conditional ht.1 hc ha ht.2)

end

/-! ## §7. Every nesting level. -/

/-- The readers of every nesting level are lawful. -/
theorem nested_lawful (n : Nat) : (nested n).Lawful := by
  induction n with
  | zero => exact ⟨.stop _, .stop _, .stop _⟩
  | succ n ih =>
    exact ⟨conditional_reads ih, .bind .blank fun _ _ => prefixed_reads ih, literal_reads ih⟩

theorem outermost_lawful : outermost.Lawful :=
  nested_lawful maxNesting

end Phrasebook
