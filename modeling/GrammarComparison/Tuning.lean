import GrammarComparison.Event

/-! # Choosing bounds

Without bounds of the user's own, small grammars are searched deeper and large ones for longer
strings: the depth falls and the length grows with the mean number of heads of the two grammars.
One bound given leaves the other at a fixed value (`Chosen`). -/

namespace GrammarComparison.Tuning

/-- The depth bound where only a length bound is given. -/
def defaultDepth : Nat := 10

/-- The length bound where only a depth bound is given. -/
def defaultLength : Nat := 20

/-- The nearest number to `n` between `lo` and `hi`. -/
def clamp (lo hi n : Nat) : Nat := max lo (min hi n)

/-- The depth and the length for two grammars with `n` heads together: 15 less the mean number of
heads, between 7 and 15, and five times the mean, between 10 and 30, fractions cut off. -/
def ofHeads (n : Nat) : Nat × Nat := (clamp 7 15 ((30 - n) / 2), clamp 10 30 (5 * n / 2))

/-- The bounds of a comparison, from those given, with the events of choosing them. -/
def bounds (first second : Grammar) (maxDepth maxLen : Option Nat) : (Nat × Nat) × List Event :=
  match maxDepth, maxLen with
  | none, none =>
    let chosen := ofHeads (first.heads.length + second.heads.length)
    (chosen, [.tuned chosen.1 chosen.2 first.averageLength second.averageLength])
  | _, _ => ((maxDepth.getD defaultDepth, maxLen.getD defaultLength), [])

/-! ### The bounds that result -/

end GrammarComparison.Tuning
