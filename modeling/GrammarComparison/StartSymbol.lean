import GrammarComparison.Symbol
import GrammarComparison.Text.Blank

/-! # Start symbols given by the user

A start symbol is given as text.  It must be a single upper-case character; white space around it
does not count. -/

namespace GrammarComparison

/-- A start symbol that is not a single upper-case character; it is kept as it was given. -/
structure InvalidStart where
  given : String
  deriving DecidableEq, Repr

namespace InvalidStart

/-- The error in words. -/
def message (e : InvalidStart) : String :=
  s!"start symbol `{e.given}` must be a single upper-case character"

end InvalidStart

/-- Reads a start symbol: a single upper-case character, white space around it left out. -/
def NonTerminal.read (text : String) : Except InvalidStart NonTerminal :=
  match Text.trim text.toList with
  | [c] => if Text.isUpper c then .ok ⟨c⟩ else .error ⟨text⟩
  | _ => .error ⟨text⟩

end GrammarComparison
