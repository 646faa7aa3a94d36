/-
  Phrasebook.Proofs.Grammar.Descent
  ────────────────────────────────
  **THE WAYS DOWN A TREE.**

  A way down a tree meets nesting levels: those that the trees on it open
  themselves, and those that are opened between a tree and one below it.

      Expr.steps        —  the trees right below a tree, with the levels
                           opened in between
      mem_children_iff  —  no tree is left out but the plain parts of texts
      Descent           —  a way down, and how many levels it meets
      ReadIn.step       —  a tree that has been read goes down by as many
                           levels as there were left
      ReadIn.descent_le —  by induction on the way, no more are met
-/
import Phrasebook.Proofs.Grammar.Origin

namespace Phrasebook

namespace Expr

/-! ## §1. Steps. -/

/-- How many levels the tree itself opens: literals, prefix operators and
parentheses open one. -/
def opening : Expr → Nat
  | .text _ | .template _ | .array _ _ | .hash _ _ | .unary _ _ | .paren _ => 1
  | .name _ | .var _ | .global _ | .number _ | .binary _ _ _ | .logical _ _ _
  | .conditional _ _ _ | .call _ _ | .property _ _ | .attribute _ _ => 0

/-- Is the tree a text without placed expressions? -/
def isPlain : Expr → Bool
  | .text _ => true
  | _ => false

/-- The trees right below a tree, each with the levels opened on the way to
it.  A placed expression opens one, and so do an argument, a computed key and
a branch of a choice.  The plain parts of a text are left out. -/
def steps : Expr → List (Nat × Expr)
  | .name _ | .var _ | .global _ | .number _ | .text _ => []
  | .template parts => (parts.filter fun e => !e.isPlain).map (1, ·)
  | .array elements _ => elements.map (0, ·)
  | .hash items _ => items.map (0, ·.value)
  | .binary _ l r | .logical _ l r => [(0, l), (0, r)]
  | .unary _ e | .paren e => [(0, e)]
  | .conditional t c a => [(0, t), (1, c), (1, a)]
  | .call f arguments => (0, f) :: arguments.map (1, ·)
  | .property b (.named _) | .attribute b (.named _) => [(0, b)]
  | .property b (.computed k) | .attribute b (.computed k) => [(0, b), (1, k)]

variable {e c : Expr} {k : Nat}

theorem isPlain_iff : e.isPlain = true ↔ ∃ t, e = .text t := by
  cases e <;> simp [isPlain]

/-- The trees right below a tree are its steps, and the plain parts of a
text. -/
theorem mem_children_iff :
    c ∈ e.children ↔ (∃ k, (k, c) ∈ e.steps)
      ∨ c.isPlain = true ∧ ∃ parts, e = .template parts ∧ c ∈ parts := by
  cases e with
  | template parts =>
    simp only [children, steps, List.mem_map, List.mem_filter, Prod.mk.injEq]
    by_cases hc : c.isPlain = true <;> simp [hc]
  | property b key | «attribute» b key => cases key <;> simp [children, steps, exists_or]
  | _ => simp [children, steps, exists_or]

/-! ## §2. Ways down. -/

/-- A way down from the tree, on which so many levels are met. -/
inductive Descent : Expr → Nat → Prop where
  | here (e : Expr) : Descent e e.opening
  | step {e c : Expr} {k n : Nat} (hc : (k, c) ∈ e.steps) (h : Descent c n) :
      Descent e (e.opening + k + n)

variable {source : List Char} {n : Nat}

theorem ReadIn.opening_le (h : e.ReadIn source n) : e.opening ≤ n := by
  cases h <;> first
    | exact Nat.zero_le _
    | exact Nat.succ_le_succ (Nat.zero_le _)

/-- A step goes down by the levels that it opens. -/
theorem ReadIn.step (h : e.ReadIn source n) (hc : (k, c) ∈ e.steps) :
    ∃ m, m + (e.opening + k) ≤ n ∧ c.ReadIn source m := by
  cases h with
  | name | var | global | number | text => exact absurd hc List.not_mem_nil
  | @template n parts hleft h =>
    obtain ⟨e, he, heq⟩ := List.mem_map.1 hc
    obtain ⟨rfl, rfl⟩ := Prod.mk.inj heq
    obtain ⟨hmem, hplain⟩ := List.mem_filter.1 he
    have hnot : ∀ t, e ≠ .text t := by
      rintro t rfl
      exact nomatch hplain
    have hn := hleft e hmem hnot
    exact ⟨n - 1, by simp only [opening]; omega, h e hmem hnot⟩
  | @array n elements _ h =>
    obtain ⟨e, he, heq⟩ := List.mem_map.1 hc
    obtain ⟨rfl, rfl⟩ := Prod.mk.inj heq
    exact ⟨n, Nat.le_refl _, h e he⟩
  | @hash n items _ _ _ _ _ h =>
    obtain ⟨f, hf, heq⟩ := List.mem_map.1 hc
    obtain ⟨rfl, rfl⟩ := Prod.mk.inj heq
    exact ⟨n, Nat.le_refl _, h f hf⟩
  | binary hl hr | logical hl hr =>
    simp only [steps, List.mem_cons, Prod.mk.injEq, List.not_mem_nil, or_false] at hc
    rcases hc with ⟨rfl, rfl⟩ | ⟨rfl, rfl⟩
    · exact ⟨n, Nat.le_refl n, hl⟩
    · exact ⟨n, Nat.le_refl n, hr⟩
  | @unary n _ _ h | @paren n _ h =>
    obtain ⟨rfl, rfl⟩ := Prod.mk.inj (List.mem_singleton.1 hc)
    exact ⟨n, Nat.le_refl _, h⟩
  | @conditional n _ _ _ ht hc' ha =>
    simp only [steps, List.mem_cons, Prod.mk.injEq, List.not_mem_nil, or_false] at hc
    rcases hc with ⟨rfl, rfl⟩ | ⟨rfl, rfl⟩ | ⟨rfl, rfl⟩
    · exact ⟨n + 1, Nat.le_refl _, ht⟩
    · exact ⟨n, Nat.le_refl _, hc'⟩
    · exact ⟨n, Nat.le_refl _, ha⟩
  | call hf hleft ha =>
    rcases List.mem_cons.1 hc with heq | hc
    · obtain ⟨rfl, rfl⟩ := Prod.mk.inj heq
      exact ⟨n, Nat.le_refl n, hf⟩
    · obtain ⟨a, hmem, heq⟩ := List.mem_map.1 hc
      obtain ⟨rfl, rfl⟩ := Prod.mk.inj heq
      have hn := hleft a hmem
      exact ⟨n - 1, by simp only [opening]; omega, ha a hmem⟩
  | @property _ b key hb hleft hk | @attributeOf _ b key hb hleft hk =>
    cases key with
    | named id =>
      obtain ⟨rfl, rfl⟩ := Prod.mk.inj (List.mem_singleton.1 hc)
      exact ⟨n, Nat.le_refl n, hb⟩
    | computed key =>
      simp only [steps, List.mem_cons, Prod.mk.injEq, List.not_mem_nil, or_false] at hc
      rcases hc with ⟨rfl, rfl⟩ | ⟨rfl, rfl⟩
      · exact ⟨n, Nat.le_refl n, hb⟩
      · have hn := hleft _ rfl
        exact ⟨n - 1, by simp only [opening]; omega, hk _ rfl⟩

/-- No way down meets more levels than were left. -/
theorem ReadIn.descent_le (hd : Descent e k) (h : e.ReadIn source n) : k ≤ n := by
  induction hd generalizing n with
  | here e => exact h.opening_le
  | step hc _ ih =>
    obtain ⟨m, hm, hread⟩ := h.step hc
    have hbelow := ih hread
    omega

/-- A tree somewhere in one that has been read has been read too, unless it is
a plain part of a text. -/
theorem ReadIn.within {x : Expr} (hx : x.Within e) (h : e.ReadIn source n) :
    x.isPlain = true ∨ ∃ m, x.ReadIn source m := by
  induction hx generalizing n with
  | refl => exact .inr ⟨n, h⟩
  | @child c e hc hx ih =>
    rcases mem_children_iff.1 hc with ⟨k, hstep⟩ | ⟨hplain, -⟩
    · obtain ⟨m, -, hread⟩ := h.step hstep
      exact ih hread
    · -- nothing stands below a plain text
      obtain ⟨t, rfl⟩ := isPlain_iff.1 hplain
      cases hx with
      | refl => exact .inl rfl
      | child hc' _ => exact absurd hc' List.not_mem_nil

end Expr

end Phrasebook
