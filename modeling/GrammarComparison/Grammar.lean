import GrammarComparison.OrderedMap
import GrammarComparison.Word

/-! # Grammars

A grammar gives each of its heads a list of productions.  Heads stand in the order in which they
were first given a production, and so do the productions of a head; no head is without production
and no production of a head occurs twice.  A non-terminal that occurs in productions only has no
productions: it is undefined.

Two grammars may be equal, order included, or only have the same rules (`SameRules`).
`produces_insert` says that `insert` adds one rule and nothing else, and `add_eq` that `add` tells
whether the grammar changes. -/

namespace GrammarComparison

/-! ### Productions of a head -/

/-- The productions of one head: at least one, and none twice. -/
structure Alternatives where
  words : List Word
  ne_nil : words ≠ []
  nodup : words.Nodup
  deriving DecidableEq

namespace Alternatives

/-- The production `w` alone. -/
def single (w : Word) : Alternatives := ⟨[w], by simp, by simp⟩

/-- The productions with `w` as the last one, unless it is among them. -/
def insert (as : Alternatives) (w : Word) : Alternatives :=
  if h : w ∈ as.words then as
  else
    ⟨as.words ++ [w], by simp, List.nodup_append.mpr ⟨as.nodup, by simp, by
      intro a ha b hb hab
      rw [List.mem_singleton.mp hb] at hab
      exact h (hab ▸ ha)⟩⟩

/-- Adds `w` to the productions of a head that may have none so far. -/
def extend (w : Word) : Option Alternatives → Alternatives
  | none => single w
  | some as => as.insert w

theorem mem_insert {as : Alternatives} {v w : Word} :
    v ∈ (as.insert w).words ↔ v = w ∨ v ∈ as.words := by
  unfold insert
  split
  · next h => exact ⟨Or.inr, fun h' => h'.elim (· ▸ h) id⟩
  · simp [or_comm]

end Alternatives

/-! ### Rules -/

/-- A set of rules: heads with their productions. -/
structure Grammar where
  rules : OrderedMap NonTerminal Alternatives
  deriving DecidableEq

namespace Grammar

@[ext]
theorem ext_entries {g h : Grammar} (e : g.rules.entries = h.rules.entries) : g = h :=
  congrArg mk (OrderedMap.ext e)

/-- The grammar without rules. -/
def empty : Grammar := ⟨.empty⟩

/-- The non-terminals that have productions, in order. -/
def heads (g : Grammar) : List NonTerminal := g.rules.keys

/-- The productions of `A` in order, if it is a head. -/
def alternatives? (g : Grammar) (A : NonTerminal) : Option (List Word) :=
  (g.rules.get? A).map Alternatives.words

/-- The productions of `A` in order; an undefined non-terminal has none. -/
def alternatives (g : Grammar) (A : NonTerminal) : List Word := (g.alternatives? A).getD []

/-- The rules as pairs of a head and a production, head by head. -/
def productions (g : Grammar) : List (NonTerminal × Word) :=
  g.rules.entries.flatMap fun (A, as) => as.words.map (A, ·)

/-- The grammar with the rule `A → w` added, unless it is there. -/
def insert (g : Grammar) (A : NonTerminal) (w : Word) : Grammar :=
  ⟨g.rules.update A (Alternatives.extend w)⟩

/-- Whether `A → w` is a rule. -/
def Produces (g : Grammar) (A : NonTerminal) (w : Word) : Prop := w ∈ g.alternatives A

instance (g : Grammar) (A : NonTerminal) (w : Word) : Decidable (g.Produces A w) :=
  inferInstanceAs (Decidable (w ∈ g.alternatives A))

/-- The grammar with the rule `A → w` added, and whether the rule is a new one. -/
def add (g : Grammar) (A : NonTerminal) (w : Word) : Bool × Grammar :=
  match g.rules.get? A with
  | none => (true, g.insert A w)
  | some as => (!as.words.contains w, g.insert A w)

/-- The grammar with the given rules added in order. -/
def insertMany (g : Grammar) (ps : List (NonTerminal × Word)) : Grammar :=
  ps.foldl (fun g p => g.insert p.1 p.2) g

/-- The grammar of the given rules, in order. -/
def ofProductions (ps : List (NonTerminal × Word)) : Grammar := empty.insertMany ps

/-- The non-terminals that occur in productions without being heads, in order of first use. -/
def undefined (g : Grammar) : List NonTerminal :=
  ((g.productions.flatMap fun p => p.2.nonTerminals).filter (· ∉ g.heads)).eraseDups

/-- The terminals of the productions, in order of first use. -/
def terminals (g : Grammar) : List Char :=
  (g.productions.flatMap fun p => p.2.terminals).eraseDups

/-- Two grammars have the same rules, in whatever order. -/
def SameRules (g h : Grammar) : Prop := ∀ A w, g.Produces A w ↔ h.Produces A w

/-- The mean number of symbols of the productions other than the marker alone; zero if there is
none. -/
def averageLength (g : Grammar) : Float :=
  let lengths := (g.productions.filter fun p => !p.2.isEpsilon).map fun p => p.2.length
  Float.ofNat (lengths.foldl (· + ·) 0) / Float.ofNat (max lengths.length 1)

/-! ### Which rules a grammar has -/

theorem produces_insert {g : Grammar} {A B : NonTerminal} {v w : Word} :
    (g.insert A w).Produces B v ↔ (B = A ∧ v = w) ∨ g.Produces B v := by
  unfold Produces alternatives alternatives? insert
  simp only [OrderedMap.get?_update]
  by_cases h : B = A
  · subst h
    cases g.rules.get? B with
    | none => simp [Alternatives.extend, Alternatives.single]
    | some as => simp [Alternatives.extend, Alternatives.mem_insert]
  · simp [h]

theorem add_eq (g : Grammar) (A : NonTerminal) (w : Word) :
    g.add A w = (decide (¬ g.Produces A w), g.insert A w) := by
  cases h : g.rules.get? A with
  | none => simp [add, h, Produces, alternatives, alternatives?]
  | some as => simp [add, h, Produces, alternatives, alternatives?]

theorem not_produces_empty {A : NonTerminal} {w : Word} : ¬ empty.Produces A w := by
  simp [Produces, alternatives, alternatives?, empty]

theorem produces_insertMany {g : Grammar} {ps : List (NonTerminal × Word)} {A : NonTerminal}
    {w : Word} : (g.insertMany ps).Produces A w ↔ g.Produces A w ∨ (A, w) ∈ ps := by
  induction ps generalizing g with
  | nil => simp [insertMany]
  | cons p ps ih =>
    rw [show g.insertMany (p :: ps) = (g.insert p.1 p.2).insertMany ps from rfl, ih,
      produces_insert, List.mem_cons, Prod.ext_iff, or_assoc, or_left_comm]

theorem produces_ofProductions {ps : List (NonTerminal × Word)} {A : NonTerminal} {w : Word} :
    (ofProductions ps).Produces A w ↔ (A, w) ∈ ps := by
  simp [ofProductions, produces_insertMany, not_produces_empty]

theorem mem_productions_iff {g : Grammar} {A : NonTerminal} {w : Word} :
    (A, w) ∈ g.productions ↔ g.Produces A w := by
  obtain ⟨⟨es, hes⟩⟩ := g
  simp only [productions, Produces, alternatives, alternatives?, OrderedMap.get?]
  induction es with
  | nil => simp [OrderedMap.find?]
  | cons e es ih =>
    obtain ⟨B, as⟩ := e
    obtain ⟨hB, hes'⟩ := List.nodup_cons.mp hes
    simp only [List.flatMap_cons, List.mem_append, ih hes']
    by_cases h : B = A
    · subst h
      have hnone : OrderedMap.find? B es = none := OrderedMap.find?_eq_none_iff.mpr hB
      simp [OrderedMap.find?, hnone]
    · simp [OrderedMap.find?, h]

theorem sameRules_iff {g h : Grammar} :
    g.SameRules h ↔ (∀ p ∈ g.productions, h.Produces p.1 p.2) ∧
      ∀ p ∈ h.productions, g.Produces p.1 p.2 := by
  refine ⟨fun e => ⟨fun p hp => (e _ _).mp (mem_productions_iff.mp hp),
    fun p hp => (e _ _).mpr (mem_productions_iff.mp hp)⟩, fun e A w => ⟨fun hp => ?_, fun hp => ?_⟩⟩
  · exact e.1 (A, w) (mem_productions_iff.mpr hp)
  · exact e.2 (A, w) (mem_productions_iff.mpr hp)

instance (g h : Grammar) : Decidable (g.SameRules h) := decidable_of_iff _ sameRules_iff.symm

end Grammar

end GrammarComparison
