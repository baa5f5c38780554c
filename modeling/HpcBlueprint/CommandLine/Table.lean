/-
  Tables drawn with plain characters.

  Every column is as wide as its widest line, with a blank on either side, and lines are
  drawn around all cells.
-/
import HpcBlueprint.Text.Search
import HpcBlueprint.Text.Width

namespace HpcBlueprint.CommandLine

/-- Rows of cells; a cell may hold several lines. -/
abbrev Table := List (List String)

namespace Table

/-- The lines of a cell. -/
def cellLines (cell : String) : List String := Text.splitAll '\n' cell

/-- The width of a cell. -/
def cellWidth (cell : String) : Nat := ((cellLines cell).map Text.lineWidth).foldl max 0

/-- The wider of two columns, column by column. -/
def wider (a b : List Nat) : List Nat :=
  match a, b with
  | [], b => b
  | a, [] => a
  | x :: a, y :: b => max x y :: wider a b

/-- The widths of the columns. -/
def widths (t : Table) : List Nat := t.foldl (fun ws row => wider ws (row.map cellWidth)) []

/-- A character some times. -/
def repeated (n : Nat) (c : Char) : String := String.ofList (List.replicate n c)

/-- A line in a cell of some width. -/
def padded (width : Nat) (line : String) : String :=
  " " ++ line ++ repeated (width - Text.lineWidth line) ' ' ++ " "

/-- The line between rows. -/
def border (widths : List Nat) : String :=
  "+" ++ String.join (widths.map fun w => repeated (w + 2) '-' ++ "+")

/-- The lines of a row. -/
def rowLines (widths : List Nat) (row : List String) : List String :=
  let cells := row.map cellLines
  let height := (cells.map List.length).foldl max 0
  (List.range height).map fun i =>
    let parts := (cells.zip widths).map fun (lines, w) => padded w (lines[i]?.getD "") ++ "|"
    "|" ++ String.join parts

/-- The text of a table, without a line break at its end. -/
def render (t : Table) : String :=
  let widths := t.widths
  let line := border widths
  "\n".intercalate (line :: t.flatMap fun row => rowLines widths row ++ [line])

end Table

end HpcBlueprint.CommandLine
