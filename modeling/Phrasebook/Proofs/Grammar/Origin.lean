/-
  Phrasebook.Proofs.Grammar.Origin
  ────────────────────────────────
  **WHERE TREES COME FROM.**

  A tree that has been read from a source was read part by part, each hash in
  it from a text at the end of the source, and each part with the nesting
  levels that were left there:

      Gives            —  what a reader gives anywhere in a source
      Expr.ReadIn      —  a tree and the levels left for it, one rule per
                          constructor
      nested_gives     —  the readers of a level give such trees, by induction
                          on the levels
      Entry.trees      —  the trees of an entry, each with the levels that
                          have been opened in front of it
      Yields.readIn    —  the trees of every entry of a resource come from it
-/
import Phrasebook.Proofs.Eval.Walk
import Phrasebook.Proofs.Grammar.Body
import Phrasebook.Proofs.Grammar.Listing

namespace Phrasebook

open Phrasebook.Parser

/-! ## §1. What a reader gives in a source. -/

namespace Parser

variable {α β : Type} {source : List Char}

/-- Wherever in the source it starts, the reader gives a value with the
property, and leaves the end of the source. -/
def Gives (source : List Char) (p : Parser α) (P : α → Prop) : Prop :=
  ∀ ⦃s a r⦄, s <:+ source → p s = .ok a r → r <:+ source ∧ P a

theorem Reads.gives {n : Nat} {p : Parser α} {P : α → Prop} (h : Reads n p P) : Gives source p P :=
  fun _ _ _ hs hp => ⟨(h.suffix_ok hp).trans hs, (h.result hp).1⟩

namespace Gives

variable {p q : Parser α} {f : α → Parser β} {P P' : α → Prop} {Q : β → Prop}

theorem mono (h : Gives source p P) (hP : ∀ a, P a → P' a) : Gives source p P' :=
  fun _ _ _ hs hp => (h hs hp).imp_right (hP _)

theorem pure {a : α} (h : P a) : Gives source (pure a : Parser α) P := by
  intro s b r hs hp
  obtain ⟨rfl, rfl⟩ := Outcome.ok.inj hp
  exact ⟨hs, h⟩

theorem stop (e : Expected) : Gives source (stop e : Parser α) P :=
  fun _ _ _ _ hp => nomatch hp

theorem bind (hp : Gives source p P) (hf : ∀ a, P a → Gives source (f a) Q) :
    Gives source (p >>= f) Q := by
  intro s b r hs h
  obtain ⟨a, q, hps, hfa⟩ := bind_eq_ok h
  obtain ⟨hq, ha⟩ := hp hs hps
  exact hf a ha hq hfa

theorem map {g : α → β} (hp : Gives source p P) (hg : ∀ a, P a → Q (g a)) :
    Gives source (g <$> p) Q :=
  bind hp fun a ha => pure (hg a ha)

theorem ite {c : Prop} [Decidable c] (hp : c → Gives source p P) (hq : ¬ c → Gives source q P) :
    Gives source (if c then p else q) P := by
  split
  · exact hp ‹_›
  · exact hq ‹_›

/-- A reader that is asked what it gives only for its outcome. -/
theorem skip {n : Nat} {p : Parser α} {T : α → Prop} (hp : Reads n p T)
    (hf : ∀ a, Gives source (f a) Q) : Gives source (p >>= f) Q :=
  bind hp.gives fun a _ => hf a

theorem collectWithin {next : Parser (Option α)} (h : Gives source next fun o => ∀ a ∈ o, P a)
    (budget : List Char) : Gives source (collectWithin next budget) fun as => ∀ a ∈ as, P a := by
  induction budget with
  | nil =>
    unfold Parser.collectWithin
    refine bind h fun o _ => ?_
    cases o with
    | none => exact pure fun a ha => absurd ha List.not_mem_nil
    | some a => exact stop _
  | cons x budget ih =>
    unfold Parser.collectWithin
    refine bind h fun o ho => ?_
    cases o with
    | none => exact pure fun a ha => absurd ha List.not_mem_nil
    | some a => exact bind ih fun as has => pure (List.forall_mem_cons.2 ⟨ho a rfl, has⟩)

theorem collect {next : Parser (Option α)} (h : Gives source next fun o => ∀ a ∈ o, P a) :
    Gives source (collect next) fun as => ∀ a ∈ as, P a :=
  fun s _ _ hs hp => collectWithin h s hs hp

theorem chainWithin {extend : α → Parser (Option α)}
    (h : ∀ a, P a → Gives source (extend a) fun o => ∀ b ∈ o, P b) (budget : List Char) :
    ∀ a, P a → Gives source (chainWithin extend budget a) P := by
  induction budget with
  | nil =>
    intro a ha
    unfold Parser.chainWithin
    refine bind (h a ha) fun o _ => ?_
    cases o with
    | none => exact pure ha
    | some b => exact stop _
  | cons x budget ih =>
    intro a ha
    unfold Parser.chainWithin
    refine bind (h a ha) fun o ho => ?_
    cases o with
    | none => exact pure ha
    | some b => exact ih b (ho b rfl)

theorem chain {extend : α → Parser (Option α)}
    (h : ∀ a, P a → Gives source (extend a) fun o => ∀ b ∈ o, P b) {a : α} (ha : P a) :
    Gives source (chain extend a) P :=
  fun s _ _ hs hp => chainWithin h s a ha hs hp

theorem looseList (list : Enumeration) (h : Gives source p P) :
    Gives source (looseList list p) fun as => ∀ a ∈ as, P a := by
  refine skip .blank fun _ => collect (skip (.eat (safe_close list)) fun _ => ite
    (fun _ => pure nofun) fun _ => bind h fun a ha => ?_)
  have hsome : ∀ b ∈ some a, P b := fun b hb => Option.some.inj hb ▸ ha
  refine skip .blank fun _ => skip (.eat (by decide)) fun _ => ite (fun _ => ?_) fun _ => ?_
  · exact skip .blank fun _ => pure hsome
  · exact skip (.isAhead (safe_close list)) fun _ => ite (fun _ => pure hsome) fun _ => stop _

theorem tightList (list : Enumeration) (h : Gives source p P) :
    Gives source (tightList list p) fun as => ∀ a ∈ as, P a := by
  have hround : Gives source (tightRound list p) fun o => ∀ a ∈ o, P a := by
    refine skip .blank fun _ => skip (.eat (by decide)) fun _ => ite (fun _ => ?_) fun _ => ?_
    · exact skip .blank fun _ => bind h fun a ha => pure fun b hb => Option.some.inj hb ▸ ha
    · exact skip (.eat (safe_close list)) fun _ => ite (fun _ => pure nofun) fun _ => stop _
  refine skip .blank fun _ => skip (.eat (safe_close list)) fun _ => ite (fun _ => ?_) fun _ => ?_
  · exact pure fun a ha => absurd ha List.not_mem_nil
  · exact bind h fun first hfirst => bind (collect hround) fun others hothers =>
      pure (List.forall_mem_cons.2 ⟨hfirst, hothers⟩)

end Gives

end Parser

open Phrasebook.Parser.Gives (pure stop bind map ite skip)

/-! ## §2. Trees and the levels left for them. -/

/-- The tree has been read from the source, where `n` more nesting levels
could be opened.  A plain part of a text opens none. -/
inductive Expr.ReadIn (source : List Char) : Nat → Expr → Prop where
  | name {n : Nat} (id : String) : ReadIn source n (.name id)
  | var {n : Nat} (id : String) : ReadIn source n (.var id)
  | global {n : Nat} (id : String) : ReadIn source n (.global id)
  | number {n : Nat} (i : Int64) : ReadIn source n (.number i)
  | text {n : Nat} (t : String) : ReadIn source (n + 1) (.text t)
  | template {n : Nat} {parts : List Expr}
      (hleft : ∀ e ∈ parts, (∀ t, e ≠ .text t) → 0 < n)
      (h : ∀ e ∈ parts, (∀ t, e ≠ .text t) → ReadIn source (n - 1) e) :
      ReadIn source (n + 1) (.template parts)
  | array {n : Nat} {elements : List Expr} {default : Option Nat}
      (h : ∀ e ∈ elements, ReadIn source n e) : ReadIn source (n + 1) (.array elements default)
  /-- Of a hash it is kept where it was read. -/
  | hash {n : Nat} {items : List (Field Expr)} {default : Option String} {s r : List Char}
      (hs : s <:+ source) (hread : literal (nested n) s = .ok (.hash items default) r)
      (h : ∀ f ∈ items, ReadIn source n f.value) : ReadIn source (n + 1) (.hash items default)
  | binary {n : Nat} {op : BinaryOp} {left right : Expr} (hl : ReadIn source n left)
      (hr : ReadIn source n right) : ReadIn source n (.binary op left right)
  | logical {n : Nat} {op : LogicalOp} {left right : Expr} (hl : ReadIn source n left)
      (hr : ReadIn source n right) : ReadIn source n (.logical op left right)
  | unary {n : Nat} {op : UnaryOp} {e : Expr} (h : ReadIn source n e) :
      ReadIn source (n + 1) (.unary op e)
  | conditional {n : Nat} {test consequent alternate : Expr} (ht : ReadIn source (n + 1) test)
      (hc : ReadIn source n consequent) (ha : ReadIn source n alternate) :
      ReadIn source (n + 1) (.conditional test consequent alternate)
  | call {n : Nat} {callee : Expr} {arguments : List Expr} (hf : ReadIn source n callee)
      (hleft : ∀ a ∈ arguments, 0 < n) (ha : ∀ a ∈ arguments, ReadIn source (n - 1) a) :
      ReadIn source n (.call callee arguments)
  | property {n : Nat} {base : Expr} {key : Accessor Expr} (hb : ReadIn source n base)
      (hleft : ∀ e, key = .computed e → 0 < n)
      (hk : ∀ e, key = .computed e → ReadIn source (n - 1) e) :
      ReadIn source n (.property base key)
  | attributeOf {n : Nat} {base : Expr} {key : Accessor Expr} (hb : ReadIn source n base)
      (hleft : ∀ e, key = .computed e → 0 < n)
      (hk : ∀ e, key = .computed e → ReadIn source (n - 1) e) :
      ReadIn source n (.attribute base key)
  | paren {n : Nat} {e : Expr} (h : ReadIn source n e) : ReadIn source (n + 1) (.paren e)

/-- The tree has been read from the source behind one more level, of `n` that
could be opened. -/
def Expr.PlacedIn (source : List Char) (n : Nat) (e : Expr) : Prop :=
  0 < n ∧ e.ReadIn source (n - 1)

/-- What the readers of the level with `n` more levels give. -/
structure LevelGives (source : List Char) (n : Nat) : Prop where
  expression : Gives source (nested n).expression (Expr.PlacedIn source n)
  operand : Gives source (nested n).operand (Expr.PlacedIn source n)
  literal : Gives source (nested n).literal (Expr.ReadIn source n)

/-- One level more makes room for a placed tree. -/
theorem Expr.PlacedIn.succ {source : List Char} {n : Nat} {e : Expr} (h : e.PlacedIn source n)
    (make : Expr → Expr) (hmake : ∀ {m}, e.ReadIn source m → (make e).ReadIn source (m + 1)) :
    (make e).ReadIn source n := by
  obtain ⟨hn, he⟩ := h
  have hmade := hmake he
  rwa [Nat.sub_add_cancel hn] at hmade

section

variable {source : List Char} {n : Nat} (hin : LevelGives source n)

/-! ## §3. Texts. -/

include hin

theorem enclosed_gives {β : Type} {Q : β → Prop} (symbol : String) {make : Expr → β}
    (hmake : ∀ e, e.PlacedIn source n → Q (make e)) :
    Gives source (enclosed (nested n) symbol make) Q :=
  skip .blank fun _ => bind hin.expression fun e he => skip .blank fun _ =>
    skip (.exactly symbol) fun _ => pure (hmake e he)

theorem piece_gives {quote : String} (hq : Safe quote.toList) :
    Gives source (piece (nested n) quote) fun o => ∀ e, o = some (.placed e) → e.PlacedIn source n := by
  have hsingle : ∀ missed, Gives source (piece.single missed)
      fun o => ∀ e, o = some (.placed e) → e.PlacedIn source n := by
    intro missed s o r hs h
    cases s with
    | nil => exact nomatch h
    | cons c s =>
      obtain ⟨rfl, rfl⟩ := Outcome.ok.inj h
      exact ⟨(List.suffix_cons c s).trans hs, nofun⟩
  refine skip (.eat hq) fun _ => ite (fun _ => pure nofun) fun _ => ?_
  refine skip (.eat (by decide)) fun _ => ite (fun _ => ?_) fun _ => ?_
  · exact skip (.eat (by decide)) fun _ => ite (fun _ => pure nofun) fun _ => hsingle _
  · refine skip (.eat (by decide)) fun _ => ite (fun _ => ?_) fun _ => hsingle _
    refine enclosed_gives hin "\x7d\x7d" fun e he e' heq => ?_
    obtain rfl := Piece.placed.inj (Option.some.inj heq)
    exact he

theorem quoted_gives {quote : String} (hq : Safe quote.toList) :
    Gives source (quoted (nested n) quote) (Expr.ReadIn source (n + 1)) := by
  have hround : Gives source (piece (nested n) quote)
      fun o => ∀ p ∈ o, ∀ e, p = .placed e → e.PlacedIn source n :=
    (piece_gives hin hq).mono fun o ho p hp e he => ho e (he ▸ hp)
  refine skip (.exactly quote) fun _ => bind (.collect hround) fun pieces hpieces => pure ?_
  -- a part that is not plain has been placed
  have hplaced : ∀ e ∈ Piece.parts pieces, (∀ t, e ≠ .text t) → e.PlacedIn source n := by
    intro e he hplain
    rcases mem_parts he with ⟨t, rfl⟩ | hp
    · exact absurd rfl (hplain t)
    · exact hpieces _ hp e rfl
  rcases ofParts_cases (Piece.parts pieces) with ⟨t, ht⟩ | hparts
  · rw [ht]
    exact .text t
  · rw [hparts]
    exact .template (fun e he hplain => (hplaced e he hplain).1)
      fun e he hplain => (hplaced e he hplain).2

omit hin in
theorem verbatim_gives {quote : String} (hq : Safe quote.toList) :
    Gives source (verbatim quote) (Expr.ReadIn source (n + 1)) :=
  skip (.exactly quote) fun _ => skip (.upTo hq) fun content => skip (.exactly quote) fun _ =>
    pure (.text (String.ofList content))

theorem textLiteral_gives : Gives source (textLiteral (nested n)) (Expr.ReadIn source (n + 1)) := by
  refine skip (.isAhead (by decide)) fun _ => skip (.isAhead (by decide)) fun _ =>
    skip (.isAhead (by decide)) fun _ => ?_
  refine ite (fun _ => verbatim_gives (by decide)) fun _ => ?_
  refine ite (fun _ => verbatim_gives (by decide)) fun _ => ?_
  exact ite (fun _ => quoted_gives hin (by decide)) fun _ => quoted_gives hin (by decide)

/-! ## §4. Arrays and hashes. -/

theorem arrayLiteral_gives :
    Gives source (arrayLiteral (nested n)) (Expr.ReadIn source (n + 1)) := by
  have helement : Gives source (element (nested n)) fun w => w.2.ReadIn source n :=
    skip (.eat (by decide)) fun _ => bind hin.literal fun _ he => pure he
  refine skip (.exactly "[") fun _ => bind (.looseList .array helement) fun written hw => pure ?_
  refine .array fun e he => ?_
  obtain ⟨w, hmem, rfl⟩ := List.mem_map.1 he
  exact hw w hmem

theorem field_gives (starred : Bool) :
    Gives source (field (nested n) starred) fun f => f.value.ReadIn source n :=
  skip .name fun _ => skip .blank fun _ => skip (.exactly ":") fun _ => skip .blank fun _ =>
    bind hin.literal fun _ he => pure he

theorem hashLiteral_gives : Gives source (hashLiteral (nested n)) fun e =>
    ∃ items default, e = .hash items default ∧ ∀ f ∈ items, f.value.ReadIn source n := by
  have hitem : Gives source (hashItem (nested n)) fun f => f.value.ReadIn source n :=
    skip (.eat (by decide)) fun starred => field_gives hin starred
  refine skip (.exactly "\x7b") fun _ => bind (.looseList .hash hitem) fun written hw => pure ?_
  exact ⟨_, _, rfl, fun f hf => hw f (Field.mem_of_mem_settle hf)⟩

theorem literal_gives : Gives source (literal (nested n)) (Expr.ReadIn source (n + 1)) := by
  intro s e r hs hread
  have h := hread
  unfold literal at h
  obtain ⟨text, q, hq, h⟩ := bind_eq_ok h
  obtain ⟨-, rfl⟩ := Outcome.ok.inj hq
  obtain ⟨array, q', hq', h⟩ := bind_eq_ok h
  obtain ⟨-, rfl⟩ := Outcome.ok.inj hq'
  obtain ⟨hash, q'', hq'', h⟩ := bind_eq_ok h
  obtain ⟨-, rfl⟩ := Outcome.ok.inj hq''
  split at h
  · exact textLiteral_gives hin hs h
  · split at h
    · exact arrayLiteral_gives hin hs h
    · split at h
      · -- a hash was read where the literal was
        obtain ⟨hr, items, default, rfl, hitems⟩ := hashLiteral_gives hin hs h
        exact ⟨hr, .hash hs hread hitems⟩
      · exact nomatch h

/-! ## §5. Primaries, accesses and calls. -/

theorem base_gives : Gives source (base (nested n)) (Expr.ReadIn source n) := by
  refine skip (.eat (by decide)) fun _ => ite (fun _ => ?_) fun _ => ?_
  · exact enclosed_gives hin ")" fun e he => he.succ .paren .paren
  · refine skip (.ahead fun _ _ _ => rfl) fun _ => skip (.ahead fun _ _ _ => rfl) fun _ => ?_
    refine ite (fun _ => ?_) fun _ => ite (fun _ => hin.literal) fun _ => ?_
    · exact skip .number fun i => pure (.number i)
    · refine skip (.eat (by decide)) fun _ => ite (fun _ => ?_) fun _ => ?_
      · exact skip .name fun id => pure (.var id)
      · refine skip (.eat (by decide)) fun _ => ite (fun _ => ?_) fun _ => ?_
        · exact skip .name fun id => pure (.global id)
        · exact skip .name fun id => pure (.name id)

theorem bracketed_gives : Gives source (bracketed (nested n))
    fun k => ∀ e, k = .computed e → e.PlacedIn source n := by
  refine enclosed_gives hin "]" fun e he e' heq => ?_
  obtain rfl := Accessor.computed.inj heq
  exact he

omit hin in
theorem namedKey_gives :
    Gives source namedKey fun k => ∀ e, k = .computed e → e.PlacedIn source n :=
  skip .name fun _ => pure nofun

theorem access_gives {e : Expr} (he : e.ReadIn source n) :
    Gives source (access (nested n) e) fun o => ∀ e' ∈ o, e'.ReadIn source n := by
  have hattribute : ∀ k : Accessor Expr, (∀ x, k = .computed x → x.PlacedIn source n) →
      (Expr.attribute e k).ReadIn source n := fun k hk =>
    .attributeOf he (fun x hx => (hk x hx).1) fun x hx => (hk x hx).2
  have hproperty : ∀ k : Accessor Expr, (∀ x, k = .computed x → x.PlacedIn source n) →
      (Expr.property e k).ReadIn source n := fun k hk =>
    .property he (fun x hx => (hk x hx).1) fun x hx => (hk x hx).2
  have hsome : ∀ {p : Parser Expr}, Gives source p (Expr.ReadIn source n) →
      Gives source (some <$> p) fun o => ∀ e' ∈ o, e'.ReadIn source n := fun hp =>
    map hp fun _ h _ heq => Option.some.inj heq ▸ h
  refine skip (.isAhead (by decide)) fun _ => skip (.isAhead (by decide)) fun _ =>
    skip (.isAhead (by decide)) fun _ => skip (.isAhead (by decide)) fun _ =>
    skip (.isAhead (by decide)) fun _ => ?_
  refine ite (fun _ => hsome ?_) fun _ => ite (fun _ => hsome ?_) fun _ =>
    ite (fun _ => hsome ?_) fun _ => pure nofun
  · refine ite (fun _ => ?_) fun _ => stop _
    refine skip (.eat (by decide)) fun _ => ite (fun _ => ?_) fun _ => ?_
    · exact bind namedKey_gives fun k hk => pure (hattribute k hk)
    · exact skip (.exactly _) fun _ => bind (bracketed_gives hin) fun k hk => pure (hattribute k hk)
  · refine skip (.eat (by decide)) fun _ => ite (fun _ => ?_) fun _ => ?_
    · exact bind namedKey_gives fun k hk => pure (hproperty k hk)
    · exact skip (.exactly _) fun _ => bind (bracketed_gives hin) fun k hk => pure (hproperty k hk)
  · refine skip (.exactly _) fun _ => bind (.tightList .callArguments hin.expression)
      fun arguments harguments => pure ?_
    exact .call he (fun a ha => (harguments a ha).1) fun a ha => (harguments a ha).2

/-! ## §6. Operators. -/

theorem prefixed_gives : Gives source (prefixed (nested n)) (Expr.ReadIn source n) := by
  have hunary : ∀ op, Gives source (Expr.unary op <$> (nested n).operand)
      (Expr.ReadIn source n) := fun op =>
    map hin.operand fun e he => he.succ (.unary op) .unary
  refine skip (.eat (by decide)) fun _ => ite (fun _ => hunary .plus) fun _ => ?_
  refine skip (.eat (by decide)) fun _ => ite (fun _ => hunary .minus) fun _ => ?_
  refine skip (.eat (by decide)) fun _ => ite (fun _ => hunary .not) fun _ => ?_
  exact bind (base_gives hin) fun e he => .chain (fun _ => access_gives hin) he

omit hin in
/-- Both operands of an operator have the same levels left. -/
theorem leftGrouped_gives {ω : Type} {ops : List (String × ω)} {build : ω → Expr → Expr → Expr}
    {operand : Parser Expr} (hops : SafeOperators ops)
    (hbuild : ∀ op l r, l.ReadIn source n → r.ReadIn source n → (build op l r).ReadIn source n)
    (h : Gives source operand (Expr.ReadIn source n)) :
    Gives source (leftGrouped ops build operand) (Expr.ReadIn source n) := by
  refine bind h fun first hfirst => .chain (fun left hleft => ?_) hfirst
  refine skip (operator_reads hops) fun o => ?_
  cases o with
  | none => exact pure nofun
  | some op =>
    refine skip .blank fun _ => bind h fun right hright => pure fun e he => ?_
    obtain rfl := Option.some.inj he
    exact hbuild op left right hleft hright

omit hin in
theorem binary_gives {ops : List BinaryOp} {operand : Parser Expr}
    (hops : SafeOperators (symbols ops)) (h : Gives source operand (Expr.ReadIn source n)) :
    Gives source (leftGrouped (symbols ops) .binary operand) (Expr.ReadIn source n) :=
  leftGrouped_gives hops (fun _ _ _ => .binary) h

omit hin in
theorem logical_gives {op : LogicalOp} {operand : Parser Expr}
    (hops : SafeOperators [(op.symbol, op)]) (h : Gives source operand (Expr.ReadIn source n)) :
    Gives source (leftGrouped [(op.symbol, op)] .logical operand) (Expr.ReadIn source n) :=
  leftGrouped_gives hops (fun _ _ _ => .logical) h

theorem conditional_gives : Gives source (conditional (nested n)) (Expr.ReadIn source n) := by
  -- level by level, from the operands of `/` to those of `||`
  have hquotient : Gives source (quotient (nested n)) (Expr.ReadIn source n) :=
    binary_gives (by decide) (prefixed_gives hin)
  have hproduct : Gives source (product (nested n)) (Expr.ReadIn source n) :=
    binary_gives (by decide) hquotient
  have hmodulo : Gives source (modulo (nested n)) (Expr.ReadIn source n) :=
    binary_gives (by decide) hproduct
  have hsum : Gives source (sum (nested n)) (Expr.ReadIn source n) :=
    binary_gives (by decide) hmodulo
  have hrelation : Gives source (relation (nested n)) (Expr.ReadIn source n) :=
    binary_gives (by decide) hsum
  have hequality : Gives source (equality (nested n)) (Expr.ReadIn source n) :=
    binary_gives (by decide) hrelation
  have hconjunction : Gives source (conjunction (nested n)) (Expr.ReadIn source n) :=
    logical_gives (by decide) hequality
  have hdisjunction : Gives source (disjunction (nested n)) (Expr.ReadIn source n) :=
    logical_gives (by decide) hconjunction
  refine bind hdisjunction fun test ht => skip .blank fun _ => skip (.eat (by decide)) fun _ =>
    ite (fun _ => ?_) fun _ => pure ht
  refine skip .blank fun _ => bind hin.expression fun consequent hc => skip .blank fun _ =>
    skip (.exactly _) fun _ => skip .blank fun _ => bind hin.expression fun alternate ha => pure ?_
  obtain ⟨m, rfl⟩ := Nat.exists_eq_succ_of_ne_zero hc.1.ne'
  exact .conditional ht hc.2 ha.2

end

/-! ## §7. Every level. -/

theorem nested_gives (source : List Char) (n : Nat) : LevelGives source n := by
  induction n with
  | zero => exact ⟨stop _, stop _, stop _⟩
  | succ n ih =>
    have hplaced : ∀ e : Expr, e.ReadIn source n → e.PlacedIn source (n + 1) := fun e he =>
      ⟨Nat.succ_pos n, he⟩
    exact ⟨(conditional_gives ih).mono hplaced,
      (skip .blank fun _ => prefixed_gives ih).mono hplaced, literal_gives ih⟩

theorem outermost_gives (source : List Char) : LevelGives source maxNesting :=
  nested_gives source maxNesting

/-! ## §8. Entries. -/

/-- The trees of an entry.  A body, and every expression of an index, opens a
nesting level of its own; the number says how many have been opened in front
of a tree. -/
def Entry.trees : Entry → List (Nat × Expr)
  | .entity e => e.value.toList.map (0, ·) ++ e.index.map (1, ·) ++ e.attributes.map (0, ·.value)
  | .macroDef m => (1, m.body) :: m.attributes.map (0, ·.value)
  | .importing _ | .comment _ | .junk _ => []

/-- The attributes of an entry. -/
def Entry.attributes : Entry → List (Field Expr)
  | .entity e => e.attributes
  | .macroDef m => m.attributes
  | .importing _ | .comment _ | .junk _ => []

/-- Is the entry an entity or a macro? -/
def Entry.isTagged : Entry → Bool
  | .entity _ | .macroDef _ => true
  | .importing _ | .comment _ | .junk _ => false

/-- These are the trees of the entry, in the same order. -/
theorem Entry.trees_map_snd (entry : Entry) : entry.trees.map Prod.snd = entry.exprs := by
  cases entry <;> simp [trees, exprs, Function.comp_def]

/-- The list of attributes has been read from the source. -/
structure AttributesReadIn (source : List Char) (attributes : List (Field Expr)) : Prop where
  place : ∃ s r, s <:+ source ∧ attributeList s = .ok attributes r
  values : ∀ f ∈ attributes, f.value.ReadIn source maxNesting

/-- The trees of the entry and its attributes have been read from the
source. -/
structure Entry.ReadIn (source : List Char) (entry : Entry) : Prop where
  trees : ∀ t ∈ entry.trees, t.2.ReadIn source (maxNesting - t.1)
  attributes : entry.isTagged = true → AttributesReadIn source entry.attributes

theorem attributeList_gives (source : List Char) :
    Gives source attributeList (AttributesReadIn source) := by
  intro s attributes r hs hread
  have hround : Gives source attributeRound fun o => ∀ f ∈ o, f.value.ReadIn source maxNesting := by
    refine skip (.eat (by decide)) fun _ => ite (fun _ => pure nofun) fun _ => ?_
    refine bind (field_gives (outermost_gives source) false) fun f hf => ?_
    refine skip .someBlank fun _ => skip (.eat (by decide)) fun _ => skip .blank fun _ => ?_
    exact skip (.isAhead (by decide)) fun _ =>
      ite (fun _ => pure fun g hg => Option.some.inj hg ▸ hf) fun _ => stop _
  obtain ⟨written, q, hwritten, hsettle⟩ := bind_eq_ok hread
  obtain ⟨rfl, rfl⟩ := Outcome.ok.inj hsettle
  obtain ⟨hr, hvalues⟩ := Gives.collect hround hs hwritten
  exact ⟨hr, ⟨_, _, hs, hread⟩, fun f hf => hvalues f (Field.mem_of_mem_settle hf)⟩

variable {source : List Char}

theorem entityBody_gives (id : String) {index : List Expr}
    (hi : ∀ e ∈ index, e.PlacedIn source maxNesting) :
    Gives source (entityBody id index) fun e => (Entry.entity e).ReadIn source := by
  have hindex : ∀ t ∈ index.map ((1, ·) : Expr → Nat × Expr), t.2.ReadIn source (maxNesting - t.1) := by
    intro t ht
    obtain ⟨e, he, rfl⟩ := List.mem_map.1 ht
    exact (hi e he).2
  intro s e r hs h
  obtain ⟨closed, q, heat, h⟩ := bind_eq_ok h
  rcases eat_cases ">" s with ⟨q', hq', heq⟩ | ⟨-, heq⟩
  · -- the entity closes at once, and an empty list of attributes with it
    rw [heq] at heat
    obtain ⟨rfl, rfl⟩ := Outcome.ok.inj heat
    obtain ⟨rfl, rfl⟩ := Outcome.ok.inj h
    obtain rfl : s = '>' :: q' := hq'
    refine ⟨(List.suffix_cons _ _).trans hs, ?_, fun _ => ⟨⟨_, _, hs, attributeList_nil q'⟩, nofun⟩⟩
    intro t ht
    simp only [Entry.trees, Option.toList_none, List.map_nil, List.nil_append,
      List.append_nil] at ht
    exact hindex t ht
  · rw [heq] at heat
    obtain ⟨rfl, rfl⟩ := Outcome.ok.inj heat
    have hvalue : Gives source entityValue fun o => ∀ v ∈ o, v.ReadIn source maxNesting := by
      refine skip (.ahead fun _ _ _ => rfl) fun _ => ite (fun _ => ?_) fun _ => pure nofun
      exact map (outermost_gives source).literal fun v hv v' hv' => Option.some.inj hv' ▸ hv
    have hrest : Gives source (do
        let spaced ← someBlank
        if spaced then
          let value ← entityValue
          blank
          let attributes ← attributeList
          Pure.pure (⟨id, isLocalName id, value, index, attributes⟩ : Entity)
        else
          Parser.stop .blankAfterId) fun e => (Entry.entity e).ReadIn source := by
      refine skip .someBlank fun _ => ite (fun _ => ?_) fun _ => stop _
      refine bind hvalue fun value hv => skip .blank fun _ => ?_
      refine bind (attributeList_gives source) fun attributes ha => pure ⟨?_, fun _ => ha⟩
      intro t ht
      rcases List.mem_append.1 ht with ht | ht
      · rcases List.mem_append.1 ht with ht | ht
        · obtain ⟨v, hv', rfl⟩ := List.mem_map.1 ht
          exact hv v (Option.mem_toList.1 hv')
        · exact hindex t ht
      · obtain ⟨f, hf, rfl⟩ := List.mem_map.1 ht
        exact ha.values f hf
    exact hrest hs h

theorem entityRest_gives (id : String) :
    Gives source (entityRest id) fun e => (Entry.entity e).ReadIn source := by
  refine skip (.eat (by decide)) fun _ => ite (fun _ => ?_) fun _ => ?_
  · exact bind (.tightList .index (outermost_gives source).expression) fun index hi =>
      entityBody_gives id hi
  · have hnone : Gives source (Pure.pure [])
        fun index : List Expr => ∀ e ∈ index, e.PlacedIn source maxNesting :=
      pure fun e he => absurd he List.not_mem_nil
    exact bind hnone fun index hi => entityBody_gives id hi

theorem macroRest_gives (id : String) :
    Gives source (macroRest id) fun m => (Entry.macroDef m).ReadIn source := by
  have hparameters := Reads.tightList .parameters (parameter_reads.atLeast (Nat.zero_le 1))
  refine ite (fun _ => stop _) fun _ => skip (.exactly _) fun _ => skip hparameters fun _ => ?_
  refine skip .blank fun _ => skip (.exactly _) fun _ => skip .blank fun _ => ?_
  refine bind (outermost_gives source).expression fun body hbody => ?_
  refine skip .blank fun _ => skip (.exactly _) fun _ => skip .blank fun _ => ?_
  refine bind (attributeList_gives source) fun attributes ha => pure ⟨?_, fun _ => ha⟩
  intro t ht
  rcases List.mem_cons.1 ht with rfl | ht
  · exact hbody.2
  · obtain ⟨f, hf, rfl⟩ := List.mem_map.1 ht
    exact ha.values f hf

theorem tagged_gives : Gives source tagged (Entry.ReadIn source) := by
  refine skip (.exactly _) fun _ => skip .name fun id => skip (.isAhead (by decide)) fun _ => ?_
  exact ite (fun _ => map (macroRest_gives id) fun _ h => h) fun _ =>
    map (entityRest_gives id) fun _ h => h

/-- Imports and comments have neither trees nor attributes. -/
theorem Entry.readIn_of_not_tagged {entry : Entry} (htrees : entry.trees = [])
    (htagged : entry.isTagged = false) : entry.ReadIn source := by
  refine ⟨fun t ht => ?_, fun h => ?_⟩
  · rw [htrees] at ht
    exact absurd ht List.not_mem_nil
  · rw [htagged] at h
    exact nomatch h

theorem comment_gives : Gives source comment (Entry.ReadIn source) :=
  skip (.exactly _) fun _ => skip (.upTo (by decide)) fun _ => skip (.exactly _) fun _ =>
    pure (Entry.readIn_of_not_tagged rfl rfl)

theorem importStatement_gives : Gives source importStatement (Entry.ReadIn source) := by
  refine skip (.exactly _) fun _ => skip .blank fun _ => skip (.exactly _) fun _ => ?_
  exact skip .blank fun _ => skip reference_reads fun _ => skip .blank fun _ =>
    skip (.exactly _) fun _ => pure (Entry.readIn_of_not_tagged rfl rfl)

/-- Every entry comes from where it has been read. -/
theorem entry_gives (source : List Char) : Gives source entry (Entry.ReadIn source) := by
  intro s e r hs h
  rcases entry_cases s with ⟨-, heq⟩ | ⟨-, heq | heq | heq⟩
  · rw [heq] at h
    exact tagged_gives hs h
  · rw [heq] at h
    exact comment_gives hs h
  · rw [heq] at h
    exact importStatement_gives hs h
  · rw [heq] at h
    exact nomatch h

/-! ## §9. Resources. -/

namespace Resource

theorem salvageFrom_readIn (source : List Char) (budget : List Char) :
    ∀ start, start <:+ source →
      ∀ e ∈ (salvageFrom source budget start).entries, e.ReadIn source := by
  have hblank : ∀ {r : List Char}, r <:+ source → dropBlank r <:+ source := fun hr =>
    (List.dropWhile_suffix _).trans hr
  induction budget with
  | nil =>
    intro start _ e he
    cases start <;> exact absurd he List.not_mem_nil
  | cons x budget ih =>
    intro start hstart e he
    by_cases hne : start = []
    · subst hne
      exact absurd he List.not_mem_nil
    · cases h : entry start with
      | ok e' r =>
        obtain ⟨hr, hread⟩ := entry_gives source hstart h
        rw [salvageFrom_ok source hne h] at he
        rcases List.mem_cons.1 he with rfl | he
        · exact hread
        · exact ih (dropBlank r) (hblank hr) e he
      | fail y r =>
        -- what is left behind the junk is the end of what was left
        have hresume : (splitJunk start r).2 <:+ source :=
          ((List.dropWhile_suffix _).trans (List.drop_suffix _ _)).trans hstart
        rw [salvageFrom_fail source hne h (rfl : splitJunk start r = (_, _))] at he
        rcases List.mem_cons.1 he with rfl | he
        · exact Entry.readIn_of_not_tagged rfl rfl
        · exact ih _ (hblank hresume) e he

/-- The trees and the attributes of an entry of a resource have been read
from it. -/
theorem Yields.readIn {source : String} {entry : Entry} (h : Yields source entry) :
    entry.ReadIn source.toList := by
  have hsalvage : ∀ e ∈ (salvage source).entries, e.ReadIn source.toList :=
    salvageFrom_readIn _ _ _ (List.dropWhile_suffix _)
  rcases h with ⟨es, hes, hentry⟩ | hentry
  · rcases read_cases source with ⟨es', hread, heq⟩ | ⟨x, hread, -⟩
    · rw [hread] at hes
      obtain rfl := Except.ok.inj hes
      rw [heq] at hsalvage
      exact hsalvage entry hentry
    · rw [hread] at hes
      exact nomatch hes
  · exact hsalvage entry hentry

end Resource

end Phrasebook
