import GrammarComparison.Derivation
import GrammarComparison.Proofs.Grammar.RoundTrip
import GrammarComparison.Renaming

/-! # Grammars without empty productions

The word `*` generates the empty string, but it has a symbol, the marker.  Grammars read from text
use it in place of the empty word: `Grammar.parse` passes over blank alternatives
(`noEmptyProduction_parse`), and renaming keeps the length of each production
(`Renaming.noEmptyProduction_apply`).  In grammars without empty productions no step makes a form
shorter (`LeftStep.length_le`). -/

namespace GrammarComparison

/-- No production is the empty word. -/
def Grammar.NoEmptyProduction (g : Grammar) : Prop := ∀ A w, g.Produces A w → w ≠ []

/-! ### Grammars without empty productions -/

variable {g : Grammar} {w x : Word}

instance (g : Grammar) : Decidable g.NoEmptyProduction :=
  decidable_of_iff (∀ p ∈ g.productions, p.2 ≠ [])
    (Grammar.forall_produces_iff (P := fun _ w => w ≠ [])).symm

theorem Grammar.Canonical.noEmptyProduction (hg : g.Canonical) : g.NoEmptyProduction := by
  intro A w hw
  have hne : w.chars ≠ [] := (hg.production A w hw).trimmed.1
  simpa [Word.chars] using hne

/-- Texts have no empty productions: blank alternatives are passed over. -/
theorem Grammar.noEmptyProduction_parse (text : String) : (parse text).NoEmptyProduction :=
  (canonical_parse text).noEmptyProduction

theorem Renaming.noEmptyProduction_apply (hg : g.NoEmptyProduction) (m : Renaming) :
    (m.apply g).NoEmptyProduction := by
  intro B v hv
  obtain ⟨A, w, hw, _, rfl⟩ := produces_apply.mp hv
  simpa [renameWord] using hg A w hw

theorem LeftStep.length_le (hg : g.NoEmptyProduction) (h : LeftStep g w x) :
    w.length ≤ x.length := by
  obtain ⟨u, A, v, p, rfl, _, hp, rfl⟩ := h
  have hpos := List.length_pos_iff.mpr (hg A p hp)
  simp only [List.length_append, List.length_cons]
  omega

end GrammarComparison
