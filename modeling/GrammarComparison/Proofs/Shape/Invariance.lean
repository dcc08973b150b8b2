import GrammarComparison.Proofs.Grammar.RuleOrder
import GrammarComparison.Proofs.Renaming.Composition
import GrammarComparison.Proofs.Shape.Counts

/-! # What shapes do not depend on

A renaming that merges none of the non-terminals of a grammar keeps heads heads and undefined
non-terminals undefined, and the order in which they are listed (`Renaming.mentioned_apply`).  It leaves
the shapes as they are, so that the analysis of the renamed grammar is the renamed analysis
(`Renaming.entries_analysis_apply`).

Nor do counts depend on the order of the productions that they count (`Shape.agrees_ofWords`).  Grammars
with the same rules have the same productions of each non-terminal, but for their order
(`Grammar.SameRules.alternatives_perm`), and mention the same non-terminals
(`Grammar.SameRules.mem_mentioned_iff`); their analyses agree. -/

namespace GrammarComparison

/-! ### Names -/

namespace Renaming

variable {m : Renaming} {g : Grammar} {A : NonTerminal}

theorem heads_apply (hm : m.InjectiveOn g.mentioned) :
    (m.apply g).heads = g.heads.map m.rename := by
  rw [← Grammar.map_fst_table, ← Grammar.map_fst_table, table_apply hm, List.map_map, List.map_map]
  rfl

theorem mentioned_apply (hm : m.InjectiveOn g.mentioned) :
    (m.apply g).mentioned = g.mentioned.map m.rename := by
  unfold Grammar.mentioned
  rw [heads_apply hm, productions_apply hm, List.flatMap_map, List.map_append, List.map_flatMap]
  simp only [nonTerminals_renameWord]

theorem ofWords_map_renameWord (m : Renaming) (ws : List Word) :
    Shape.ofWords (ws.map m.renameWord) = .ofWords ws := by
  have hepsilon : Word.isEpsilon ∘ m.renameWord = Word.isEpsilon := funext m.isEpsilon_renameWord
  have hholds : ∀ t n, Shape.holds t n ∘ m.renameWord = Shape.holds t n := fun t n =>
    funext (m.keepsKind_renameWord.holds_eq t n)
  unfold Shape.ofWords
  simp only [List.length_map, List.countP_map, hepsilon, hholds, List.flatMap_map,
    terminals_renameWord]

theorem ofWords_alternatives_apply (hm : m.InjectiveOn g.mentioned) (hA : A ∈ g.mentioned) :
    Shape.ofWords ((m.apply g).alternatives (m.rename A)) = .ofWords (g.alternatives A) := by
  have hstart : m.InjectiveOn (A :: g.mentioned) :=
    hm.mono (List.forall_mem_cons.mpr ⟨hA, fun _ hB => hB⟩)
  rw [alternatives_apply hstart List.mem_cons_self, ofWords_map_renameWord]

/-- **The analysis goes with the names.** -/
theorem entries_analysis_apply (hm : m.InjectiveOn g.mentioned) :
    (m.apply g).analysis.shapes.entries =
      g.analysis.shapes.entries.map fun e => (m.rename e.1, e.2) := by
  rw [Grammar.entries_analysis, Grammar.entries_analysis, mentioned_apply hm, eraseDups_map hm,
    List.map_map, List.map_map]
  refine List.map_congr_left fun A hA => ?_
  exact Prod.ext rfl (ofWords_alternatives_apply hm (List.mem_eraseDups.mp hA))

end Renaming

/-! ### The order of productions -/

namespace Shape

variable {us vs : List Word}

/-- The shapes have the same counts, those of terminals in whatever order. -/
structure Agrees (s t : Shape) : Prop where
  total : s.total = t.total
  erasing : s.erasing = t.erasing
  terminalOnly : s.terminalOnly = t.terminalOnly
  nonTerminalOnly : s.nonTerminalOnly = t.nonTerminalOnly
  mixed : s.mixed = t.mixed
  occurrences : s.occurrences.Agrees t.occurrences

theorem agrees_count {cs ds : List Char} (h : cs.Perm ds) : (count cs).Agrees (count ds) := by
  intro c
  rw [get?_count, get?_count, h.count_eq]
  simp only [h.mem_iff]

/-- The counts are the same in whatever order the productions come. -/
theorem agrees_ofWords (h : us.Perm vs) : (ofWords us).Agrees (ofWords vs) where
  total := h.length_eq
  erasing := h.countP_eq _
  terminalOnly := h.countP_eq _
  nonTerminalOnly := h.countP_eq _
  mixed := h.countP_eq _
  occurrences := agrees_count (h.flatMap_right _)

end Shape

namespace Grammar

variable {g h : Grammar} {A : NonTerminal}

theorem mem_mentioned_iff :
    A ∈ g.mentioned ↔ ∃ B w, g.Produces B w ∧ (A = B ∨ A ∈ w.nonTerminals) := by
  unfold mentioned
  rw [List.mem_append, mem_heads_iff, List.mem_flatMap]
  simp only [Prod.exists, mem_productions_iff]
  constructor
  · rintro (⟨w, hw⟩ | ⟨B, w, hw, hA⟩)
    · exact ⟨A, w, hw, .inl rfl⟩
    · exact ⟨B, w, hw, .inr hA⟩
  · rintro ⟨B, w, hw, rfl | hA⟩
    · exact .inl ⟨w, hw⟩
    · exact .inr ⟨B, w, hw, hA⟩

namespace SameRules

theorem mem_mentioned_iff (e : g.SameRules h) : A ∈ g.mentioned ↔ A ∈ h.mentioned := by
  rw [Grammar.mem_mentioned_iff, Grammar.mem_mentioned_iff]
  simp only [e _ _]

theorem alternatives_perm (e : g.SameRules h) (A : NonTerminal) :
    (g.alternatives A).Perm (h.alternatives A) :=
  (List.perm_ext_iff_of_nodup (g.nodup_alternatives A) (h.nodup_alternatives A)).mpr (e A)

/-- **The analysis does not depend on the order of the rules**: the same non-terminals are listed, with
shapes that agree. -/
theorem agrees_analysis (e : g.SameRules h) (A : NonTerminal) :
    Option.Rel Shape.Agrees (g.analysis.shapes.get? A) (h.analysis.shapes.get? A) := by
  rw [get?_analysis, get?_analysis]
  simp only [e.mem_mentioned_iff]
  split
  · exact .some (Shape.agrees_ofWords (e.alternatives_perm A))
  · exact .none

end SameRules

/-! ### The laws together -/

/-- **Analyses depend neither on names nor on order.** -/
theorem analysis_invariant :
    (∀ (m : Renaming) (g : Grammar), m.InjectiveOn g.mentioned →
      (m.apply g).analysis.shapes.entries =
        g.analysis.shapes.entries.map fun e => (m.rename e.1, e.2)) ∧
    ∀ g h : Grammar, g.SameRules h → ∀ A,
      Option.Rel Shape.Agrees (g.analysis.shapes.get? A) (h.analysis.shapes.get? A) :=
  ⟨fun _ _ => Renaming.entries_analysis_apply, fun _ _ e => e.agrees_analysis⟩

/-- `S -> aA | Db` and `A -> * | S`, where `D` is undefined, with `S` and `A` exchanged and `D` renamed to
`E`, and with all rules in the opposite order, in which `b` comes before `a`. -/
theorem analysis_exchanged_and_reversed :
    let S : NonTerminal := ⟨'S'⟩
    let A : NonTerminal := ⟨'A'⟩
    let D : NonTerminal := ⟨'D'⟩
    let E : NonTerminal := ⟨'E'⟩
    let rules := [(S, [.terminal 'a', .nonTerminal A]), (S, [.nonTerminal D, .terminal 'b']),
      (A, [.marker]), (A, [.nonTerminal S])]
    let g := ofProductions rules
    let h := ofProductions rules.reverse
    let m := Renaming.ofPairs [(S, A), (A, S), (D, E)]
    (m.InjectiveOn g.mentioned ∧ (m.apply g).analysis.shapes.keys = [A, S, E] ∧
      (m.apply g).analysis.shapes.entries =
        g.analysis.shapes.entries.map fun e => (m.rename e.1, e.2)) ∧
    g.SameRules h ∧ ∃ s t, g.analysis.shapes.get? S = some s ∧ h.analysis.shapes.get? S = some t ∧
      s.Agrees t ∧ s.occurrences.keys = ['a', 'b'] ∧ t.occurrences.keys = ['b', 'a'] := by
  intro S A D E rules g h m
  obtain ⟨hnames, horder⟩ := analysis_invariant
  have hm : m.InjectiveOn g.mentioned := by decide
  have e : g.SameRules h := by decide
  have hentries := hnames m g hm
  have hS : S ∈ g.mentioned := by decide
  have hshape : g.analysis.shapes.get? S = some (.ofWords (g.alternatives S)) := by
    rw [get?_analysis, if_pos hS]
  have hreversed : h.analysis.shapes.get? S = some (.ofWords (h.alternatives S)) := by
    rw [get?_analysis, if_pos (e.mem_mentioned_iff.mp hS)]
  have hagrees := horder g h e S
  rw [hshape, hreversed] at hagrees
  refine ⟨⟨hm, ?_, hentries⟩, e, _, _, hshape, hreversed, Option.rel_some_some.mp hagrees,
    by decide, by decide⟩
  unfold OrderedMap.keys
  rw [hentries, List.map_map]
  decide

end Grammar

end GrammarComparison
