import GrammarComparison.Grammar.RuleText

/-! # The definition of a grammar as a tuple

The text `G = (N, T, P, S)` with its alphabets and rules listed by code point, the start symbol
before the other non-terminals. -/

namespace GrammarComparison.Grammar

/-- Characters in ascending order. -/
def sortChars (cs : List Char) : List Char := cs.mergeSort fun c d => (compare c d).isLE

/-- All non-terminals of a grammar and its start symbol: the start symbol first and the others
ascending. -/
def alphabetFrom (g : Grammar) (start : NonTerminal) : List Char :=
  start.char ::
    sortChars (((g.heads ++ g.undefined).filter (· ≠ start)).map NonTerminal.char)

/-- Characters with a comma and a space between them. -/
def commaList (cs : List Char) : List Char := List.intercalate [',', ' '] (cs.map ([·]))

/-- The rules of one head on an indented line. -/
def definitionLine (A : NonTerminal) (as : Alternatives) : List Char :=
  ' ' :: ' ' :: A.char :: [' ', '→', ' '] ++ renderAlternatives as ++ ['\n']

/-- The definition of a grammar with the given start symbol. -/
def definition (g : Grammar) (start : NonTerminal) : String :=
  let entries := g.rules.entries.mergeSort fun e f => (compare e.1.char f.1.char).isLE
  "G = (\x7b" ++ String.ofList (commaList (g.alphabetFrom start)) ++ "\x7d, \x7b" ++
    String.ofList (commaList (sortChars g.terminals)) ++ "\x7d, P, " ++
    String.ofList [start.char] ++ ")\n\nP = \x7b\n" ++
    String.ofList (entries.flatMap fun e => definitionLine e.1 e.2) ++ "\x7d\n"

end GrammarComparison.Grammar
