import GrammarComparison.Text.Uppercase

/-! # Grammar symbols

A symbol is a terminal, a non-terminal or the marker `*`, which stands for the empty string.
Terminals and non-terminals are single characters; which of the two a character is belongs to the
symbol and not to the character, so a non-terminal may be written with a small letter.
`Symbol.classify` is the reading of rule text, where capitals are non-terminals. -/

namespace GrammarComparison

/-- A non-terminal, written as one character. -/
structure NonTerminal where
  char : Char
  deriving DecidableEq, Repr

/-- A symbol of a word. -/
inductive Symbol where
  | terminal (char : Char)
  | nonTerminal (nonTerminal : NonTerminal)
  | marker
  deriving DecidableEq, Repr

namespace Symbol

/-- The character that stands for the empty string. -/
def markerChar : Char := '*'

/-- The symbol that a character of rule text stands for: the marker, a non-terminal for an
upper-case character, and a terminal for any other. -/
def classify (c : Char) : Symbol :=
  if c = markerChar then marker
  else if Text.isUpper c then nonTerminal ⟨c⟩
  else terminal c

/-- The character that a symbol is written with. -/
def char : Symbol → Char
  | terminal c => c
  | nonTerminal A => A.char
  | marker => markerChar

/-- The non-terminal that a symbol is, if it is one. -/
def nonTerminal? : Symbol → Option NonTerminal
  | nonTerminal A => some A
  | _ => none

/-- The character of a terminal. -/
def terminal? : Symbol → Option Char
  | terminal c => some c
  | _ => none

/-- A number that tells symbols apart. -/
def code : Symbol → Nat
  | marker => 0
  | terminal c => 2 * c.toNat + 1
  | nonTerminal A => 2 * A.char.toNat + 2

theorem code_injective : ∀ {s t : Symbol}, s.code = t.code → s = t
  | marker, marker, _ => rfl
  | terminal c, terminal d, h => by
    rw [Char.toNat_inj.mp (show c.toNat = d.toNat by simp only [code] at h; omega)]
  | nonTerminal ⟨c⟩, nonTerminal ⟨d⟩, h => by
    rw [Char.toNat_inj.mp (show c.toNat = d.toNat by simp only [code] at h; omega)]
  | marker, terminal _, h | marker, nonTerminal _, h | terminal _, marker, h
  | terminal _, nonTerminal _, h | nonTerminal _, marker, h | nonTerminal _, terminal _, h => by
    simp only [code] at h; omega

/-- Symbols are ordered by their codes. -/
instance : Ord Symbol := ⟨compareOn code⟩

instance : Std.TransOrd Symbol := inferInstanceAs (Std.TransCmp (compareOn code))

instance : Std.LawfulEqOrd Symbol where
  eq_of_compare h := code_injective (Std.LawfulEqOrd.eq_of_compare (α := Nat) h)

@[simp]
theorem char_classify (c : Char) : (classify c).char = c := by
  unfold classify
  split
  · next h => exact h.symm
  · split <;> rfl

end Symbol

end GrammarComparison
