/-
  Phrasebook.Suggestion
  ────────────────────────────────
  **DID YOU MEAN …?**

  For an unknown name, the names that it may be a slip of: at most three of
  them, the nearest first, and in alphabetical order among equally near ones.
  A name of at most three bytes may be one edit away, a longer one two.
-/
import Phrasebook.Text.Distance
import Phrasebook.Text.Position
import Phrasebook.Text.Sorted

namespace Phrasebook

/-- How far a suggestion may be from the name asked for. -/
def suggestionLimit (name : String) : Nat :=
  if byteLength name.toList ≤ 3 then 1 else 2

/-- How many suggestions are made at most. -/
def suggestionCount : Nat := 3

/-- A candidate with its distance from the name asked for. -/
structure Candidate where
  distance : Nat
  name : String
  deriving Repr, DecidableEq

/-- Does a candidate come before another? -/
def Candidate.before (a b : Candidate) : Bool :=
  a.distance < b.distance || (a.distance == b.distance && decide (a.name < b.name))

/-- The candidates near enough to a name, in no particular order. -/
def candidates (name : String) (available : List String) : List Candidate :=
  (available.map fun other => ⟨rowDistance name.toList other.toList, other⟩).filter
    fun c => 0 < c.distance && c.distance ≤ suggestionLimit name

/-- The suggestions for a name among the available ones. -/
def suggestions (name : String) (available : List String) : List String :=
  ((sortBy Candidate.before (candidates name available)).take suggestionCount).map
    Candidate.name

end Phrasebook
