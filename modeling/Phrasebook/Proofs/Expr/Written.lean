/-
  Phrasebook.Proofs.Expr.Written
  ────────────────────────────────
  **THE TREES THAT CAN BE WRITTEN.**

  `Expr.Written` is the shape of the trees that a resource can spell: every
  operand binds at least as tightly as its place asks for, the elements of
  arrays and the items of hashes are literals, and attributes are taken of
  names, calls and parentheses only.

      level          —  how tightly a tree binds, from 0 (a choice) to 11
      Written        —  one rule per constructor
      Written.isSound  —  such a tree passes the check of definitions
-/
import Phrasebook.Definition
import Phrasebook.Expr.Literal

namespace Phrasebook

/-! ## §1. Levels. -/

/-- How tightly an operator binds that may leave its right operand alone. -/
def LogicalOp.level : LogicalOp → Nat
  | .or => 1
  | .and => 2

/-- How tightly an operator on two computed operands binds. -/
def BinaryOp.level : BinaryOp → Nat
  | .equal | .notEqual => 3
  | .less | .greater | .lessEqual | .greaterEqual => 4
  | .add | .subtract => 5
  | .remainder => 6
  | .multiply => 7
  | .divide => 8

namespace Expr

/-- How tightly prefix operators bind. -/
def prefixLevel : Nat := 9

/-- How tightly accesses and calls bind. -/
def memberLevel : Nat := 10

/-- How tightly the outermost operator of a tree binds. -/
def level : Expr → Nat
  | .conditional _ _ _ => 0
  | .logical op _ _ => op.level
  | .binary op _ _ => op.level
  | .unary _ _ => prefixLevel
  | .call _ _ | .property _ _ | .attribute _ _ => memberLevel
  | .name _ | .var _ | .global _ | .number _ | .text _ | .template _ | .array _ _ | .hash _ _
  | .paren _ => 11

/-- Is the tree a text, an array or a hash? -/
def isLiteral : Expr → Bool
  | .text _ | .template _ | .array _ _ | .hash _ _ => true
  | _ => false

/-! ## §2. Written trees. -/

/-- The trees that a resource can spell. -/
inductive Written : Expr → Prop where
  | name (id : String) : Written (.name id)
  | var (id : String) : Written (.var id)
  | global (id : String) : Written (.global id)
  | number (n : Int64) : Written (.number n)
  | text (s : String) : Written (.text s)
  | template {parts : List Expr} (h : ∀ e ∈ parts, Written e) : Written (.template parts)
  /-- The star of an array is the last one written. -/
  | array {written : List (Bool × Expr)} (h : ∀ w ∈ written, Written w.2)
      (hl : ∀ w ∈ written, w.2.isLiteral = true) : Written (.ofElements written)
  /-- A hash keeps one item for each key written. -/
  | hash {written : List (Field Expr)} (h : ∀ f ∈ written, Written f.value)
      (hl : ∀ f ∈ written, f.value.isLiteral = true) : Written (.ofItems written)
  | binary {op : BinaryOp} {l r : Expr} (hl : Written l) (hr : Written r)
      (hll : op.level ≤ l.level) (hlr : op.level < r.level) : Written (.binary op l r)
  | logical {op : LogicalOp} {l r : Expr} (hl : Written l) (hr : Written r)
      (hll : op.level ≤ l.level) (hlr : op.level < r.level) : Written (.logical op l r)
  | unary {op : UnaryOp} {e : Expr} (h : Written e) (hle : prefixLevel ≤ e.level) :
      Written (.unary op e)
  | conditional {t c a : Expr} (ht : Written t) (hc : Written c) (ha : Written a)
      (hlt : LogicalOp.or.level ≤ t.level) : Written (.conditional t c a)
  | call {f : Expr} {arguments : List Expr} (hf : Written f) (hlf : memberLevel ≤ f.level)
      (ha : ∀ a ∈ arguments, Written a) : Written (.call f arguments)
  | property {b : Expr} {k : Accessor Expr} (hb : Written b) (hlb : memberLevel ≤ b.level)
      (hk : ∀ e, k = .computed e → Written e) : Written (.property b k)
  | attributeOf {b : Expr} {k : Accessor Expr} (hb : Written b) (hbase : b.canHaveAttribute = true)
      (hk : ∀ e, k = .computed e → Written e) : Written (.attribute b k)
  | paren {e : Expr} (h : Written e) : Written (.paren e)

/-- Literals bind like primaries. -/
theorem level_of_isLiteral {e : Expr} (h : e.isLiteral = true) : e.level = 11 := by
  cases e <;> first | rfl | exact nomatch h

end Expr

/-! ## §3. Items that settle. -/

namespace Field

variable {α : Type}

theorem mem_place {f g : Field α} {kept : List (Field α)} (h : g ∈ place f kept) :
    g = f ∨ g ∈ kept := by
  induction kept with
  | nil => exact .inl (List.mem_singleton.1 h)
  | cons x kept ih =>
    unfold place at h
    split at h
    · rcases List.mem_cons.1 h with rfl | h
      · exact .inl rfl
      · exact .inr (List.mem_cons_of_mem _ h)
    · rcases List.mem_cons.1 h with rfl | h
      · exact .inr List.mem_cons_self
      · exact (ih h).imp_right (List.mem_cons_of_mem _)

/-- Every item that remains has been written. -/
theorem mem_of_mem_settle {written : List (Field α)} {f : Field α} (h : f ∈ settle written) :
    f ∈ written := by
  suffices hfold : ∀ kept : List (Field α),
      f ∈ written.foldl (fun kept g => place g kept) kept → f ∈ kept ∨ f ∈ written by
    exact (hfold [] h).resolve_left List.not_mem_nil
  -- by induction on what is still to be placed, whatever has been kept
  clear h
  induction written with
  | nil =>
    intro kept h
    exact .inl h
  | cons g written ih =>
    intro kept h
    rcases ih _ h with h | h
    · rcases mem_place h with rfl | h
      · exact .inr List.mem_cons_self
      · exact .inl h
    · exact .inr (List.mem_cons_of_mem _ h)

end Field

/-! ## §4. Written trees pass the check. -/

namespace Expr

theorem areSound_iff {es : List Expr} : areSound es = true ↔ ∀ e ∈ es, e.isSound = true := by
  induction es with
  | nil => simp [areSound]
  | cons e es ih => simp [areSound, ih]

theorem areItemsSound_iff {fs : List (Field Expr)} :
    areItemsSound fs = true ↔ ∀ f ∈ fs, f.value.isSound = true := by
  induction fs with
  | nil => simp [areItemsSound]
  | cons f fs ih => simp [areItemsSound, ih]

theorem isKeySound_of {k : Accessor Expr} (h : ∀ e, k = .computed e → e.isSound = true) :
    isKeySound k = true := by
  cases k with
  | named id => rfl
  | computed e => exact h e rfl

/-- A tree that can be written passes the check of definitions. -/
theorem Written.isSound {e : Expr} (h : e.Written) : e.isSound = true := by
  induction h with
  | name | var | global | number | text => rfl
  | template _ ih => exact areSound_iff.2 ih
  | @array written _ _ ih =>
    refine areSound_iff.2 fun e he => ?_
    obtain ⟨w, hw, rfl⟩ := List.mem_map.1 he
    exact ih w hw
  | @hash written _ _ ih =>
    exact areItemsSound_iff.2 fun f hf => ih f (Field.mem_of_mem_settle hf)
  | binary _ _ _ _ ihl ihr => simp [Expr.isSound, ihl, ihr]
  | logical _ _ _ _ ihl ihr => simp [Expr.isSound, ihl, ihr]
  | unary _ _ ih => exact ih
  | conditional _ _ _ _ iht ihc iha => simp [Expr.isSound, iht, ihc, iha]
  | call _ _ _ ihf iha => simp [Expr.isSound, ihf, areSound_iff.2 iha]
  | property _ _ _ ihb ihk => simp [Expr.isSound, ihb, isKeySound_of ihk]
  | attributeOf _ hbase _ ihb ihk => simp [Expr.isSound, hbase, ihb, isKeySound_of ihk]
  | paren _ ih => exact ih

end Expr

end Phrasebook
