import GrammarComparison.Grammar

/-! # Renamings of non-terminals

A renaming sends some non-terminals to others and leaves the rest alone; all are sent at once, so a
renaming may swap two of them.  Applied to a grammar it acts on heads and productions alike, and
heads that are sent to one non-terminal have their productions merged. -/

namespace GrammarComparison

/-- A partial renaming of non-terminals, in the order in which its entries were given. -/
structure Renaming where
  targets : OrderedMap NonTerminal NonTerminal
  deriving DecidableEq

namespace Renaming

/-- The renaming without entries. -/
def empty : Renaming := ⟨.empty⟩

/-- The entries in order. -/
def pairs (m : Renaming) : List (NonTerminal × NonTerminal) := m.targets.entries

/-- Where `A` is sent, if it has an entry. -/
def get? (m : Renaming) (A : NonTerminal) : Option NonTerminal := m.targets.get? A

/-- The renaming of the given pairs; of two pairs for one non-terminal the later counts. -/
def ofPairs (ps : List (NonTerminal × NonTerminal)) : Renaming := ⟨.ofList ps⟩

/-- The renaming that sends every non-terminal of `g` to itself. -/
def identity (g : Grammar) : Renaming := ofPairs ((g.heads ++ g.undefined).map fun A => (A, A))

/-- Where `A` is sent; without an entry it stays. -/
def rename (m : Renaming) (A : NonTerminal) : NonTerminal := (m.get? A).getD A

/-- The symbol with its non-terminal renamed. -/
def renameSymbol (m : Renaming) : Symbol → Symbol
  | .nonTerminal A => .nonTerminal (m.rename A)
  | s => s

/-- The word with its non-terminals renamed. -/
def renameWord (m : Renaming) (w : Word) : Word := w.map m.renameSymbol

/-- The grammar with heads and productions renamed. -/
def apply (m : Renaming) (g : Grammar) : Grammar :=
  .ofProductions (g.productions.map fun (A, w) => (m.rename A, m.renameWord w))

/-- Two renamings agree if they have the same entries, in whatever order. -/
def Agrees (m n : Renaming) : Prop := m.targets.Agrees n.targets

instance (m n : Renaming) : Decidable (m.Agrees n) :=
  inferInstanceAs (Decidable (m.targets.Agrees n.targets))

/-- An entry as it is shown. -/
def entryText (p : NonTerminal × NonTerminal) : String :=
  String.ofList [p.1.char, ' ', '→', ' ', p.2.char]

/-- The renaming as it is shown: its entries between braces. -/
def text (m : Renaming) : String :=
  "\x7b" ++ ", ".intercalate (m.pairs.map entryText) ++ "\x7d"

theorem renameSymbol_eq_marker_iff {m : Renaming} {s : Symbol} :
    m.renameSymbol s = .marker ↔ s = .marker := by
  cases s <;> simp [renameSymbol]

theorem produces_apply {m : Renaming} {g : Grammar} {B : NonTerminal} {v : Word} :
    (m.apply g).Produces B v ↔ ∃ A w, g.Produces A w ∧ m.rename A = B ∧ m.renameWord w = v := by
  simp only [apply, Grammar.produces_ofProductions, List.mem_map, Prod.exists,
    Grammar.mem_productions_iff, Prod.mk.injEq]

end Renaming

end GrammarComparison
