import GrammarComparison.Proofs.Grammar.Table
import GrammarComparison.Renaming
import GrammarComparison.Shape

/-! # Profiles of productions

The analysis of a grammar gives every non-terminal, head or not, the shape of its productions
(`Grammar.shape_analysis`).  The profile of a shape says which kinds of productions there are and
neither how many nor in which order, so that it follows the productions through any map of words that
leaves their kinds alone (`Shape.profile_ofWords`).  Renaming is such a map
(`Renaming.keepsKind_renameWord`). -/

namespace GrammarComparison

variable {us vs : List Word} {f : Word → Word} {w : Word}

/-! ### The shapes of an analysis -/

theorem Grammar.alternatives_of_not_mem_heads {g : Grammar} {A : NonTerminal} (h : A ∉ g.heads) :
    g.alternatives A = [] := by
  rw [List.eq_nil_iff_forall_not_mem]
  exact fun w hw => h (mem_heads_iff.mpr ⟨w, hw⟩)

theorem Grammar.shape_analysis (g : Grammar) (A : NonTerminal) :
    g.analysis.shape A = .ofWords (g.alternatives A) := by
  unfold Analysis.shape analysis
  rw [OrderedMap.get?_ofList_map]
  split
  · rfl
  · rename_i hA
    rw [alternatives_of_not_mem_heads fun hhead => hA (List.mem_append_left _ hhead)]
    rfl

/-! ### Kinds of words -/

/-- The map leaves alone whether a word is the marker, has terminals and has non-terminals. -/
structure Word.KeepsKind (f : Word → Word) : Prop where
  isEpsilon_eq : ∀ w, (f w).isEpsilon = w.isEpsilon
  isEmpty_terminals_eq : ∀ w, (f w).terminals.isEmpty = w.terminals.isEmpty
  isEmpty_nonTerminals_eq : ∀ w, (f w).nonTerminals.isEmpty = w.nonTerminals.isEmpty

theorem Word.keepsKind_id : KeepsKind id := ⟨fun _ => rfl, fun _ => rfl, fun _ => rfl⟩

theorem Word.KeepsKind.holds_eq (hf : KeepsKind f) (t n : Bool) (w : Word) :
    Shape.holds t n (f w) = Shape.holds t n w := by
  unfold Shape.holds
  rw [hf.isEpsilon_eq, hf.isEmpty_terminals_eq, hf.isEmpty_nonTerminals_eq]

theorem Shape.countP_pos_eq {p : Word → Bool} (hp : ∀ w, p (f w) = p w)
    (hvs : ∀ v, v ∈ vs ↔ ∃ w ∈ us, f w = v) : decide (0 < vs.countP p) = decide (0 < us.countP p) := by
  rw [decide_eq_decide, List.countP_pos_iff, List.countP_pos_iff]
  constructor
  · rintro ⟨v, hv, hpv⟩
    obtain ⟨w, hw, rfl⟩ := (hvs v).mp hv
    exact ⟨w, hw, hp w ▸ hpv⟩
  · rintro ⟨w, hw, hpw⟩
    exact ⟨f w, (hvs _).mpr ⟨w, hw, rfl⟩, (hp w).symm ▸ hpw⟩

/-- The profile goes with the words, whatever their order and number. -/
theorem Shape.profile_ofWords (hf : Word.KeepsKind f) (hvs : ∀ v, v ∈ vs ↔ ∃ w ∈ us, f w = v) :
    (ofWords vs).profile = (ofWords us).profile := by
  unfold profile ofWords
  simp only [countP_pos_eq hf.isEpsilon_eq hvs, countP_pos_eq (hf.holds_eq _ _) hvs]

/-! ### Renamed words -/

namespace Renaming

theorem isEpsilon_renameWord (m : Renaming) (w : Word) :
    (m.renameWord w).isEpsilon = w.isEpsilon := by
  unfold Word.isEpsilon Word.epsilon renameWord
  rw [Bool.eq_iff_iff, beq_iff_eq, beq_iff_eq, List.map_eq_singleton_iff]
  simp only [renameSymbol_eq_marker_iff, exists_eq_right]

theorem terminals_renameWord (m : Renaming) (w : Word) :
    (m.renameWord w).terminals = w.terminals := by
  unfold Word.terminals renameWord
  rw [List.filterMap_map]
  congr 1
  funext s
  cases s <;> rfl

theorem nonTerminals_renameWord (m : Renaming) (w : Word) :
    (m.renameWord w).nonTerminals = w.nonTerminals.map m.rename := by
  unfold Word.nonTerminals renameWord
  rw [List.filterMap_map, List.map_filterMap]
  congr 1
  funext s
  cases s <;> rfl

theorem keepsKind_renameWord (m : Renaming) : Word.KeepsKind m.renameWord where
  isEpsilon_eq := m.isEpsilon_renameWord
  isEmpty_terminals_eq := fun w => by rw [m.terminals_renameWord]
  isEmpty_nonTerminals_eq := fun w => by rw [m.nonTerminals_renameWord, List.isEmpty_map]

end Renaming

end GrammarComparison
