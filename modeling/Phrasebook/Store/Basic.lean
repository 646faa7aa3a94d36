/-
  Phrasebook.Store.Basic
  ────────────────────────────────
  **STORES OF TEXTS.**

  A store answers reads.  It is finite, so imports in it cannot lead to ever
  new resources: a chain of imports without a cycle is shorter than all
  texts together.
-/
import Phrasebook.Load.Errand

namespace Phrasebook

/-- Texts by their paths. -/
structure Store where
  read : String → Reading
  /-- At least the number of characters in all texts. -/
  size : Nat

/-- More resources than can import one another in a row: each import takes
at least one character, and the first resource needs none. -/
def Store.importDepth (store : Store) : Nat :=
  store.size + 2

end Phrasebook
