/-
  Phrasebook.Proofs.Grammar.Nesting
  ────────────────────────────────
  **MORE NESTING LEVELS CHANGE NOTHING.**

  What is read where few levels may be opened is read the same where more may
  be.  A reader extends another one if it gives the same wherever the other
  one succeeds; all ways to put readers together keep this:

      Built.extends   —  one case for each of these ways
      nested_extends  —  by induction on the levels
      IsBody.deeper   —  a body stays one
-/
import Phrasebook.Proofs.Grammar.Body
import Phrasebook.Proofs.Grammar.Built

namespace Phrasebook

open Phrasebook.Parser

/-! ## §1. Readers that extend others. -/

namespace Parser

variable {α β : Type}

/-- Whatever the first reader reads, the second one reads too. -/
def Extends (p q : Parser α) : Prop :=
  ∀ ⦃s a r⦄, p s = .ok a r → q s = .ok a r

theorem Extends.refl (p : Parser α) : Extends p p :=
  fun _ _ _ h => h

theorem Extends.bind {p q : Parser α} {f g : α → Parser β} (hp : Extends p q)
    (hf : ∀ a, Extends (f a) (g a)) : Extends (p >>= f) (q >>= g) := by
  intro s b r h
  obtain ⟨a, t, hps, hfa⟩ := bind_eq_ok h
  rw [bind_of_ok (hp hps)]
  exact hf a hfa

end Parser

/-- The readers of a nesting level extend those of another one. -/
structure Nested.Extends (inner outer : Nested) : Prop where
  expression : Parser.Extends inner.expression outer.expression
  operand : Parser.Extends inner.operand outer.operand
  literal : Parser.Extends inner.literal outer.literal

/-- A reader extends as far as those of the next level do. -/
theorem Built.extends {top : Bool} {α : Type} {p : Nested → Parser α} (hp : Built top p)
    {inner outer : Nested} (h : inner.Extends outer) : Extends (p inner) (p outer) := by
  induction hp with
  | single => exact .refl _
  | bind _ _ ihp ihf => exact .bind ihp ihf
  | look _ ih => exact fun s _ _ hs => ih s hs
  | opens hq =>
    cases hq with
    | expression => exact h.expression
    | operand => exact h.operand
    | literal => exact h.literal
  | outermost => exact .refl _

/-! ## §2. Levels. -/

/-- One more level changes nothing that can be read without it. -/
theorem nested_extends (n : Nat) : (nested n).Extends (nested (n + 1)) := by
  induction n with
  | zero =>
    have hstop : ∀ q, Extends (stop .shallowerNesting : Parser Expr) q := fun _ _ _ _ h => nomatch h
    exact ⟨hstop _, hstop _, hstop _⟩
  | succ n ih =>
    have hbody : ∀ {q body : Nested → Parser Expr}, Opens q body →
        Extends (body (nested n)) (body (nested (n + 1))) := fun hq =>
      (hq.built : Built false _).extends ih
    exact ⟨hbody .expression, hbody .operand, hbody .literal⟩

/-- A body stays one if more levels may be opened. -/
theorem IsBody.deeper {n m : Nat} {v : List Char} {e : Expr} (h : IsBody n v e) (hnm : n ≤ m) :
    IsBody m v e := by
  induction hnm with
  | refl => exact h
  | step _ ih =>
    have hbraced : Built false fun inner => Phrasebook.enclosed inner "\x7d" fun e => e :=
      enclosedBuilt _ _
    exact hbraced.extends (nested_extends _) ih

end Phrasebook
