/-
  Phrasebook.Text.Table
  ────────────────────────────────
  **TABLES IN A BOX.**

  A table has a header and rows of cells.  Each column is as wide as its
  widest cell; a cell may have several lines.  A box is drawn around the
  table, with a double rule below the header, and no lines inside.
-/
import Phrasebook.Text.Columns

namespace Phrasebook

/-! ## §1. Cells. -/

/-- The lines of a cell. -/
abbrev Cell : Type := List (List Char)

/-- The cell with a text. -/
def Cell.ofText (s : String) : Cell :=
  s.toList.splitOn '\n'

/-- The number of columns that a cell takes. -/
def Cell.width (cell : Cell) : Nat :=
  (cell.map textWidth).foldl max 0

/-- A line of a cell, filled up to a width, with a blank on either side. -/
def padded (width : Nat) (line : List Char) : List Char :=
  ' ' :: line ++ List.replicate (width - textWidth line + 1) ' '

/-! ## §2. Tables. -/

/-- A table with a header. -/
structure Table where
  header : List String
  rows : List (List String)

namespace Table

/-- The cells of all rows, those of the header first. -/
def cells (t : Table) : List (List Cell) :=
  (t.header :: t.rows).map (List.map Cell.ofText)

/-- The larger of two widths, column by column. -/
def widest : List Nat → List Nat → List Nat
  | [], ws => ws
  | ws, [] => ws
  | v :: vs, w :: ws => max v w :: widest vs ws

/-- The width of each column. -/
def widths (t : Table) : List Nat :=
  t.cells.foldl (fun ws row => widest ws (row.map Cell.width)) []

/-- A line of the box with something between its ends. -/
def boxed (left right : Char) (line : List Char) : String :=
  String.ofList (left :: line ++ [right])

/-- A rule as wide as the table. -/
def rule (t : Table) (left middle right : Char) : String :=
  let width := t.widths.foldr (fun w n => w + 2 + n) 0 + (t.widths.length - 1)
  boxed left right (List.replicate width middle)

/-- The `n`-th line of a row. -/
def rowLine (t : Table) (row : List Cell) (n : Nat) : String :=
  let parts := (t.widths.zip row).map fun (width, cell) => padded width (cell.getD n [])
  boxed '│' '│' ([' '].intercalate parts)

/-- The lines of a row, as many as its highest cell has. -/
def rowLines (t : Table) (row : List Cell) : List String :=
  let height := (row.map List.length).foldl max 0
  (List.range height).map (t.rowLine row)

/-- The lines of a table. -/
def lines (t : Table) : List String :=
  match t.cells with
  | [] => []
  | header :: rows =>
    t.rule '┌' '─' '┐' :: t.rowLines header
      ++ t.rule '╞' '═' '╡' :: rows.flatMap t.rowLines
      ++ [t.rule '└' '─' '┘']

end Table

end Phrasebook
