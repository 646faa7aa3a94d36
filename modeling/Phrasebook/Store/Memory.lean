/-
  Phrasebook.Store.Memory
  ────────────────────────────────
  **TEXTS IN MEMORY.**

  A URI is its own path.  A URI may also be known to be unreadable.
-/
import Phrasebook.Store.Basic

namespace Phrasebook

/-- How the read of each URI is answered; all others are missing. -/
abbrev Memory : Type := List (String × Reading)

namespace Memory

/-- The answer to a read; of two entries for one URI the first counts. -/
def read (memory : Memory) (uri : String) : Reading :=
  match memory with
  | [] => .error .missing
  | (known, answer) :: others => if known = uri then answer else read others uri

/-- The number of characters of an answer. -/
def answerSize : Reading → Nat
  | .ok text => text.length
  | .error _ => 0

/-- The texts as a store. -/
def store (memory : Memory) : Store where
  read := memory.read
  size := memory.foldr (fun (_, answer) n => answerSize answer + n) 0

end Memory

end Phrasebook
