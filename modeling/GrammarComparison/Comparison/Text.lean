import GrammarComparison.Comparison
import GrammarComparison.Text.Table

/-! # Reports as text

The languages side by side, then the renaming and what it leads to, then the differences, and the
verdict as the last line. -/

namespace GrammarComparison.Report

/-- A language as a column: its strings in order, the empty one as `ε`. -/
def column (l : Language) : List (List Char) := l.words.map fun w => if w = [] then ['ε'] else w

/-- The rows of two columns, the shorter one filled up with empty cells. -/
def pairUp : List (List Char) → List (List Char) → List (List (List Char))
  | [], [] => []
  | u :: us, [] => [u, []] :: pairUp us []
  | [], v :: vs => [[], v] :: pairUp [] vs
  | u :: us, v :: vs => [u, v] :: pairUp us vs

/-- The table of two languages side by side. -/
def sideBySide (left right : String) (l m : Language) : Text.Table where
  headings := [left.toList, right.toList]
  rows := pairUp (column l) (column m)

/-- A table under a title. -/
def titled (title : String) (t : Text.Table) : String :=
  title ++ ":\n" ++ String.ofList t.render ++ "\n"

/-- The report as text. -/
def text (r : Report) : String :=
  let mapping := match r.finding.renaming? with
    | none => ""
    | some m => "Symbol mapping: " ++ m.text ++ "\n"
  let mapped := match r.finding.mapped? with
    | none => ""
    | some l => titled "Generated strings with the mapping applied"
      (sideBySide "grammar 1 (mapped)" "grammar 2" l r.second)
  let differences := match r.finding.difference? with
    | none => ""
    | some d => titled "Differences"
      (sideBySide "only in grammar 1" "only in grammar 2" d.onlyFirst d.onlySecond)
  titled "Generated strings" (sideBySide "grammar 1" "grammar 2" r.first r.second) ++ mapping ++
    mapped ++ differences ++ r.verdict.text ++ ".\n"

end GrammarComparison.Report
