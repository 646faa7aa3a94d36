/-
  Phrasebook.Text.Position
  ────────────────────────────────
  **POSITIONS IN A TEXT.**

  A position is a line and a column, both counted from one.  Lines end at
  a line feed; columns count the bytes of the UTF-8 form, so that a tool
  that opens the file can jump to them.

      Position.after consumed   —  where a reader stands that has read `consumed`
      Position.offset p text    —  the byte offset of a position, at most
                                   the length of the text
      Position.ofOffset n text  —  the position of a byte offset
-/

namespace Phrasebook

/-! ## §1. Lengths in bytes. -/

/-- The number of bytes of the UTF-8 form of a text. -/
def byteLength : List Char → Nat
  | [] => 0
  | c :: r => c.utf8Size + byteLength r

theorem byteLength_append (s t : List Char) :
    byteLength (s ++ t) = byteLength s + byteLength t := by
  induction s with
  | nil => simp [byteLength]
  | cons c r ih => simp [byteLength, ih, Nat.add_assoc]

/-! ## §2. From a text to a position. -/

/-- A line and a column, both counted from one; columns count bytes. -/
structure Position where
  line : Nat
  column : Nat
  deriving Repr, DecidableEq

namespace Position

/-- Where every text starts. -/
def start : Position := ⟨1, 1⟩

/-- One character further on. -/
def advance (p : Position) (c : Char) : Position :=
  if c = '\n' then ⟨p.line + 1, 1⟩ else ⟨p.line, p.column + c.utf8Size⟩

/-- Where a reader stands that has read `consumed` from the start. -/
def after (consumed : List Char) : Position :=
  consumed.foldl advance start

theorem after_append (s t : List Char) :
    after (s ++ t) = t.foldl advance (after s) := by
  simp [after]

/-! ## §3. From a position back to a byte offset. -/

/-- The lines of a text, each with its line feed; the last one may lack it. -/
def lines : List Char → List (List Char)
  | [] => []
  | c :: r =>
    if c = '\n' then [c] :: lines r
    else match lines r with
      | [] => [[c]]
      | l :: ls => (c :: l) :: ls

/-- The byte offset of a position: the bytes of the lines before it and the
bytes before it in its own line, but never past the end of the text. -/
def offset (p : Position) (text : List Char) : Nat :=
  min (byteLength ((lines text).take (p.line - 1)).flatten + (p.column - 1))
    (byteLength text)

/-- The longest part at the start of a text that has at most `n` bytes. -/
def takeBytes : (n : Nat) → List Char → List Char
  | _, [] => []
  | n, c :: r => if c.utf8Size ≤ n then c :: takeBytes (n - c.utf8Size) r else []

/-- The position of a byte offset. -/
def ofOffset (n : Nat) (text : List Char) : Position :=
  after (takeBytes n text)

end Position

end Phrasebook
