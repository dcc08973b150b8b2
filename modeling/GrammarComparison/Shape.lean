import GrammarComparison.Grammar

/-! # The shapes of productions

A production that is the marker alone is erasing.  Any other one is counted by the kinds of symbols
it holds, markers left out: terminals only, non-terminals only, or both.  The empty word, and a word
of several markers, hold neither and fall under no count but the total.

Two non-terminals are compatible if they have the same kinds of productions, however many. -/

namespace GrammarComparison

/-- The counts of a non-terminal's productions by shape, and of the terminals in them. -/
structure Shape where
  total : Nat
  erasing : Nat
  terminalOnly : Nat
  nonTerminalOnly : Nat
  mixed : Nat
  occurrences : OrderedMap Char Nat

/-- Which kinds of productions a non-terminal has at all. -/
structure Profile where
  erasing : Bool
  terminalOnly : Bool
  nonTerminalOnly : Bool
  mixed : Bool
  deriving DecidableEq, Repr

namespace Shape

/-- The shape of a non-terminal without productions. -/
def zero : Shape := ⟨0, 0, 0, 0, 0, .empty⟩

/-- Whether the production is not erasing and holds terminals or not, non-terminals or not, as
asked. -/
def holds (terminals nonTerminals : Bool) (w : Word) : Bool :=
  !w.isEpsilon && (!w.terminals.isEmpty == terminals) && (!w.nonTerminals.isEmpty == nonTerminals)

/-- How often each character occurs, in order of first occurrence. -/
def count (cs : List Char) : OrderedMap Char Nat :=
  cs.foldl (fun m c => m.update c fun n => n.getD 0 + 1) .empty

/-- The shape of the given productions. -/
def ofWords (ws : List Word) : Shape where
  total := ws.length
  erasing := ws.countP Word.isEpsilon
  terminalOnly := ws.countP (holds true false)
  nonTerminalOnly := ws.countP (holds false true)
  mixed := ws.countP (holds true true)
  occurrences := count (ws.flatMap Word.terminals)

/-- The kinds of productions that a shape counts. -/
def profile (s : Shape) : Profile :=
  ⟨0 < s.erasing, 0 < s.terminalOnly, 0 < s.nonTerminalOnly, 0 < s.mixed⟩

/-- Whether two shapes count the same kinds of productions. -/
def compatible (s t : Shape) : Bool := s.profile == t.profile

end Shape

/-- The shapes of the non-terminals of a grammar. -/
structure Analysis where
  shapes : OrderedMap NonTerminal Shape

namespace Analysis

/-- The shape of `A`; that of a foreign non-terminal counts nothing. -/
def shape (a : Analysis) (A : NonTerminal) : Shape := (a.shapes.get? A).getD .zero

end Analysis

/-- The shapes of the heads of `g` and after them those of its undefined non-terminals. -/
def Grammar.analysis (g : Grammar) : Analysis where
  shapes := .ofList ((g.heads ++ g.undefined).map fun A => (A, .ofWords (g.alternatives A)))

end GrammarComparison
