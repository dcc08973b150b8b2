import GrammarComparison.Symbol

/-! # Words

A word is a list of symbols: a production of a grammar, or a sentential form on the way to a string.
`splitLeftmost` takes a word apart at its leftmost non-terminal, which is the place where a
derivation goes on; `spelling` is the string that a word without non-terminals stands for. -/

namespace GrammarComparison

/-- A production, or a sentential form of a derivation. -/
abbrev Word : Type := List Symbol

namespace Word

/-- The word that a text is read as, character by character. -/
def ofText (cs : List Char) : Word := cs.map Symbol.classify

/-- The word of the marker alone. -/
def epsilon : Word := [.marker]

/-- Whether the word is the marker alone; a word may also hold markers among other symbols. -/
def isEpsilon (w : Word) : Bool := w == epsilon

/-- Whether the word has no non-terminal. -/
def isTerminal (w : Word) : Bool := w.all (·.nonTerminal?.isNone)

/-- The non-terminals of the word in order, each as often as it occurs. -/
def nonTerminals (w : Word) : List NonTerminal := w.filterMap Symbol.nonTerminal?

/-- The terminals of the word in order, each as often as it occurs. -/
def terminals (w : Word) : List Char := w.filterMap Symbol.terminal?

/-- The word before its leftmost non-terminal, that non-terminal, and the word after it. -/
def splitLeftmost : Word → Option (Word × NonTerminal × Word)
  | [] => none
  | .nonTerminal A :: w => some ([], A, w)
  | s :: w => (splitLeftmost w).map fun (u, A, v) => (s :: u, A, v)

/-- The position of the leftmost non-terminal, with that non-terminal. -/
def leftmost? (w : Word) : Option (Nat × NonTerminal) :=
  (splitLeftmost w).map fun (u, A, _) => (u.length, A)

/-- The word with `r` in place of the symbol at position `i`, if there is such a position. -/
def replaceAt? (w : Word) (i : Nat) (r : Word) : Option Word :=
  if i < w.length then some (w.take i ++ r ++ w.drop (i + 1)) else none

/-- The characters of the word, markers left out. -/
def spelling (w : Word) : List Char := (w.filter (· != .marker)).map Symbol.char

/-- The word as it is printed, markers shown. -/
def chars (w : Word) : List Char := w.map Symbol.char

theorem nonTerminals_append (u v : Word) :
    nonTerminals (u ++ v) = nonTerminals u ++ nonTerminals v := List.filterMap_append

theorem mem_terminals_iff {w : Word} {c : Char} : c ∈ terminals w ↔ .terminal c ∈ w := by
  unfold terminals
  rw [List.mem_filterMap]
  constructor
  · rintro ⟨s, hs, hterminal⟩
    cases s <;> simp_all [Symbol.terminal?]
  · exact fun hs => ⟨.terminal c, hs, rfl⟩

theorem mem_nonTerminals_iff {w : Word} {A : NonTerminal} :
    A ∈ nonTerminals w ↔ .nonTerminal A ∈ w := by
  unfold nonTerminals
  rw [List.mem_filterMap]
  constructor
  · rintro ⟨s, hs, hnonTerminal⟩
    cases s <;> simp_all [Symbol.nonTerminal?]
  · exact fun hs => ⟨.nonTerminal A, hs, rfl⟩

theorem splitLeftmost_eq_some {w u v : Word} {A : NonTerminal}
    (h : splitLeftmost w = some (u, A, v)) : w = u ++ .nonTerminal A :: v ∧ isTerminal u := by
  induction w generalizing u with
  | nil => simp [splitLeftmost] at h
  | cons s w ih =>
    cases s with
    | nonTerminal B =>
      simp only [splitLeftmost, Option.some.injEq, Prod.mk.injEq] at h
      obtain ⟨rfl, rfl, rfl⟩ := h
      simp [isTerminal]
    | terminal c =>
      simp only [splitLeftmost, Option.map_eq_some_iff, Prod.exists, Prod.mk.injEq] at h
      obtain ⟨u', B, v', hw, rfl, rfl, rfl⟩ := h
      obtain ⟨rfl, hu⟩ := ih hw
      exact ⟨rfl, by simpa [isTerminal, Symbol.nonTerminal?] using hu⟩
    | marker =>
      simp only [splitLeftmost, Option.map_eq_some_iff, Prod.exists, Prod.mk.injEq] at h
      obtain ⟨u', B, v', hw, rfl, rfl, rfl⟩ := h
      obtain ⟨rfl, hu⟩ := ih hw
      exact ⟨rfl, by simpa [isTerminal, Symbol.nonTerminal?] using hu⟩

theorem splitLeftmost_eq_none_iff {w : Word} : splitLeftmost w = none ↔ isTerminal w := by
  induction w with
  | nil => simp [splitLeftmost, isTerminal]
  | cons s w ih => cases s <;> simp_all [splitLeftmost, isTerminal, Symbol.nonTerminal?]

end Word

end GrammarComparison
