/-! # Spans of code points

Properties of characters are given by tables of spans.  A span has a step, because in many
alphabets capitals and small letters take turns and a property holds of every second code point. -/

namespace GrammarComparison.Text

/-- The code points `first`, `first + step`, …, up to `last`. -/
structure Span where
  first : Nat
  last : Nat
  step : Nat
  deriving DecidableEq, Repr

/-- Whether the span holds the code point `n`. -/
def Span.contains (s : Span) (n : Nat) : Bool :=
  s.first ≤ n && n ≤ s.last && (n - s.first) % s.step == 0

/-- Whether some span of the table holds the character `c`. -/
def inTable (table : List Span) (c : Char) : Bool :=
  table.any (·.contains c.toNat)

end GrammarComparison.Text
