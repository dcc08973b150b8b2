import GrammarComparison.Shape
import GrammarComparison.Text.Table

/-! # The table of an analysis

One row for each non-terminal with its counts, and the terminals of its productions with theirs. -/

namespace GrammarComparison

/-- The cells of a shape in a table. -/
def Shape.cells (s : Shape) : List (List Char) :=
  let count := fun (n : Nat) => (toString n).toList
  let occurrence := fun (e : Char × Nat) => e.1 :: ':' :: ' ' :: count e.2
  [count s.total, count s.erasing, count s.terminalOnly, count s.nonTerminalOnly, count s.mixed,
    List.intercalate [',', ' '] (s.occurrences.entries.map occurrence)]

namespace Analysis

/-- The headings of the table of an analysis. -/
def headings : List (List Char) :=
  ["", "productions", "ε", "terminal only", "non-terminal only", "mixed",
    "terminal occurrences"].map String.toList

/-- The table of an analysis, a row for each non-terminal. -/
def table (a : Analysis) : Text.Table where
  headings := headings
  rows := a.shapes.entries.map fun (A, s) => [A.char] :: s.cells

end Analysis

end GrammarComparison
