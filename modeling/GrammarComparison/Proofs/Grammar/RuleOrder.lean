import GrammarComparison.Proofs.Derivation.Monotone
import GrammarComparison.Proofs.Language
import GrammarComparison.Proofs.Shape

/-! # The order of rules

Grammars with the same rules may list heads and productions in different orders.  The order decides
in which order the search meets forms, and so what a step limit cuts off; without step limit the
strings found are the same (`Grammar.SameRules.language_eq`), as are the heads, but for their order
(`Grammar.SameRules.heads_perm`), and the profiles of all non-terminals
(`Grammar.SameRules.profile_eq`).  Renaming keeps rules the same (`Grammar.SameRules.apply`).

Any order of the heads can be had (`Grammar.withHeads`). -/

namespace GrammarComparison.Grammar

variable {g h : Grammar} {A : NonTerminal} {w : Word}

namespace SameRules

theorem refl (g : Grammar) : g.SameRules g := fun _ _ => Iff.rfl

theorem symm (e : g.SameRules h) : h.SameRules g := fun A w => (e A w).symm

/-! ### Strings -/

theorem rulesWithin (e : g.SameRules h) : g.RulesWithin h := fun A w => (e A w).mp

/-- Without step limit the order of rules is of no account. -/
theorem language_eq (e : g.SameRules h) (b : Bounds) (A : NonTerminal) :
    (g.enumerate b none A).language = (h.enumerate b none A).language := by
  ext v
  rw [mem_language_iff_generates, mem_language_iff_generates]
  exact ⟨.mono e.rulesWithin (.refl b), .mono e.symm.rulesWithin (.refl b)⟩

/-! ### Heads and profiles -/

theorem mem_heads_iff (e : g.SameRules h) : A ∈ g.heads ↔ A ∈ h.heads := by
  rw [Grammar.mem_heads_iff, Grammar.mem_heads_iff]
  exact exists_congr fun w => e A w

theorem heads_perm (e : g.SameRules h) : g.heads.Perm h.heads :=
  (List.perm_ext_iff_of_nodup g.nodup_heads h.nodup_heads).mpr fun _ => e.mem_heads_iff

theorem profile_eq (e : g.SameRules h) (A : NonTerminal) :
    (g.analysis.shape A).profile = (h.analysis.shape A).profile := by
  rw [shape_analysis, shape_analysis]
  refine Shape.profile_ofWords Word.keepsKind_id fun v => ?_
  simp only [id_eq, exists_eq_right]
  exact e A v

/-! ### Renaming -/

theorem apply (e : g.SameRules h) (m : Renaming) : (m.apply g).SameRules (m.apply h) := by
  intro B v
  simp only [Renaming.produces_apply, e _ _]

end SameRules

/-! ### Heads in a given order -/

/-- The grammar with the given heads, which have their productions as before. -/
def withHeads (g : Grammar) (As : List NonTerminal) : Grammar :=
  ofProductions (rulesOf (As.map fun A => (A, g.alternatives A)))

variable {As : List NonTerminal}

theorem nodup_alternatives (g : Grammar) (A : NonTerminal) : (g.alternatives A).Nodup := by
  unfold alternatives alternatives?
  cases g.rules.get? A with
  | none => exact List.nodup_nil
  | some as => exact as.nodup

theorem produces_withHeads : (g.withHeads As).Produces A w ↔ A ∈ As ∧ g.Produces A w := by
  unfold withHeads rulesOf Produces
  rw [← Produces, produces_ofProductions, List.flatMap_map, List.mem_flatMap]
  simp only [List.mem_map, Prod.mk.injEq]
  constructor
  · rintro ⟨B, hB, v, hv, rfl, rfl⟩
    exact ⟨hB, hv⟩
  · rintro ⟨hA, hw⟩
    exact ⟨A, hA, w, hw, rfl, rfl⟩

theorem sameRules_withHeads (hAs : As.Perm g.heads) : g.SameRules (g.withHeads As) := by
  intro B v
  rw [produces_withHeads, hAs.mem_iff]
  exact ⟨fun hv => ⟨Grammar.mem_heads_iff.mpr ⟨v, hv⟩, hv⟩, fun h => h.2⟩

theorem heads_withHeads (hAs : As.Perm g.heads) : (g.withHeads As).heads = As := by
  have hkeys : (As.map fun B => (B, g.alternatives B)).map Prod.fst = As := by
    rw [List.map_map]
    exact List.map_id As
  have hnodup : As.Nodup := hAs.nodup_iff.mpr g.nodup_heads
  have hwords : ∀ e ∈ As.map fun B => (B, g.alternatives B), e.2 ≠ [] ∧ e.2.Nodup := by
    intro e he
    obtain ⟨B, hB, rfl⟩ := List.mem_map.mp he
    obtain ⟨w, hw⟩ := Grammar.mem_heads_iff.mp (hAs.mem_iff.mp hB)
    exact ⟨List.ne_nil_of_mem hw, g.nodup_alternatives B⟩
  unfold withHeads
  rw [← map_fst_table, table_ofProductions (hkeys.symm ▸ hnodup) hwords, hkeys]

end GrammarComparison.Grammar
