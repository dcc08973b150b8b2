import GrammarComparison.Text.Width

/-! # Bordered tables

A table of text with rounded corners: a row of headings, a rule under it and the other rows.  Cells
stand at the left of their column with a blank on either side.  A cell may have several lines; then
its row is as high as its highest cell, and a column is as wide as its widest line.  A table without
rows ends with the rule under its headings. -/

namespace GrammarComparison.Text

/-- A table: headings and rows of as many cells. -/
structure Table where
  headings : List (List Char)
  rows : List (List (List Char))

namespace Table

/-- The lines of a cell. -/
def cellLines (cell : List Char) : List (List Char) := cell.splitOn '\n'

/-- The width of the widest line of a cell. -/
def cellWidth (cell : List Char) : Nat := (cellLines cell).foldr (fun l n => max (width l) n) 0

/-- The widths of the columns. -/
def columnWidths (t : Table) : List Nat :=
  t.rows.foldr (fun row ws => (row.zip ws).map fun (cell, n) => max (cellWidth cell) n)
    (t.headings.map cellWidth)

/-- A line of a cell, filled with blanks up to the width of its column. -/
def padded (columnWidth : Nat) (line : List Char) : List Char :=
  ' ' :: line ++ List.replicate (columnWidth - width line + 1) ' '

/-- A horizontal line from `left` to `right`, with `cross` between the columns. -/
def rule (left cross right : Char) (widths : List Nat) : List Char :=
  left :: List.intercalate [cross] (widths.map fun n => List.replicate (n + 2) '─') ++ [right]

/-- The lines of a row. -/
def rowLines (widths : List Nat) (row : List (List Char)) : List (List Char) :=
  let cells := row.map cellLines
  let height := cells.foldr (fun ls n => max ls.length n) 0
  (List.range height).map fun i =>
    '│' :: List.intercalate ['│']
      ((cells.zip widths).map fun (ls, n) => padded n (ls.getD i [])) ++ ['│']

/-- The lines of a table. -/
def lines (t : Table) : List (List Char) :=
  let widths := t.columnWidths
  rule '╭' '┬' '╮' widths :: rowLines widths t.headings ++ rule '├' '┼' '┤' widths ::
    if t.rows.isEmpty then [] else t.rows.flatMap (rowLines widths) ++ [rule '╰' '┴' '╯' widths]

/-- The table as text, without a line break at its end. -/
def render (t : Table) : List Char := List.intercalate ['\n'] t.lines

end Table

end GrammarComparison.Text
