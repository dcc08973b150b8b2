import Mathlib.Data.List.Perm.Subperm
import GrammarComparison.Proofs.Grammar.RuleOrder
import GrammarComparison.Proofs.Renaming.Exhaustive

/-! # Renamed grammars are found

Let a grammar define all its non-terminals, and rename it without merging any two of them.  The
search from the grammar to the renamed one, whose rules may be listed in another order, then has the
renaming among its candidates, also with the filter on (`RenamingSearch.IsRenamed.exists_candidate`):
profiles go along with the renaming (`Renaming.profile_apply`), so that the filter holds none of its
pairs back.  As the two grammars enumerate the same without step limit, the search finds some
renaming, whatever its bounds (`RenamingSearch.IsRenamed.isSome_find?`). -/

namespace GrammarComparison

/-! ### Renaming a grammar that defines all its non-terminals -/

theorem Grammar.mem_heads_of_mentioned {g : Grammar} {A : NonTerminal} (hg : g.undefined = [])
    (hA : A ∈ g.mentioned) : A ∈ g.heads := by
  refine Decidable.byContradiction fun hhead => ?_
  have hundefined := mem_undefined_iff.mpr ⟨hA, hhead⟩
  rw [hg] at hundefined
  simp at hundefined

namespace Renaming

variable {m : Renaming} {g : Grammar} {A B : NonTerminal}

/-- The renaming with entries for the given non-terminals and no others. -/
def restrict (m : Renaming) (As : List NonTerminal) : Renaming :=
  ofPairs (As.map fun A => (A, m.rename A))

theorem mem_heads_apply : B ∈ (m.apply g).heads ↔ ∃ A ∈ g.heads, m.rename A = B := by
  simp only [Grammar.mem_heads_iff, produces_apply]
  constructor
  · rintro ⟨_, A, w, hw, hA, _⟩
    exact ⟨A, ⟨w, hw⟩, hA⟩
  · rintro ⟨A, ⟨w, hw⟩, hA⟩
    exact ⟨m.renameWord w, A, w, hw, hA, rfl⟩

theorem length_heads_apply_le (m : Renaming) (g : Grammar) :
    (m.apply g).heads.length ≤ g.heads.length := by
  have hsubset : (m.apply g).heads ⊆ g.heads.map m.rename := by
    intro B hB
    obtain ⟨A, hA, rfl⟩ := mem_heads_apply.mp hB
    exact List.mem_map_of_mem hA
  have hlength := ((m.apply g).nodup_heads.subperm hsubset).length_le
  rwa [List.length_map] at hlength

/-- A renaming that merges no heads takes their profiles along. -/
theorem profile_apply (hm : m.InjectiveOn g.heads) (hA : A ∈ g.heads) :
    ((m.apply g).analysis.shape (m.rename A)).profile = (g.analysis.shape A).profile := by
  rw [Grammar.shape_analysis, Grammar.shape_analysis]
  refine Shape.profile_ofWords m.keepsKind_renameWord fun v => ?_
  have hproduces := produces_apply (m := m) (g := g) (B := m.rename A) (v := v)
  unfold Grammar.Produces at hproduces
  rw [hproduces]
  constructor
  · rintro ⟨B, w, hw, hBA, hv⟩
    obtain rfl := hm B (Grammar.mem_heads_iff.mpr ⟨w, hw⟩) A hA hBA
    exact ⟨w, hw, hv⟩
  · rintro ⟨w, hw, hv⟩
    exact ⟨A, w, hw, rfl, hv⟩

end Renaming

/-! ### The search for the renaming -/

namespace RenamingSearch

variable {r : RenamingSearch} {m : Renaming} {A : NonTerminal}

/-- The second grammar of the search is the first one, renamed by `m`: the first grammar defines all
its non-terminals, and `m` merges none of them with each other or with the start symbol. -/
structure IsRenamed (r : RenamingSearch) (m : Renaming) : Prop where
  undefined : r.first.undefined = []
  injective : m.InjectiveOn (r.firstStart :: r.first.heads)
  sameRules : r.second.SameRules (m.apply r.first)
  secondStart : r.secondStart = m.rename r.firstStart

namespace IsRenamed

theorem injective_heads (h : r.IsRenamed m) : m.InjectiveOn r.first.heads :=
  h.injective.mono fun _ => List.mem_cons_of_mem _

theorem mem_targets (h : r.IsRenamed m) (hA : A ∈ r.sources) : m.rename A ∈ r.targets := by
  obtain ⟨hhead, hstart⟩ := mem_sources_iff.mp hA
  rw [mem_targets_iff, h.sameRules.mem_heads_iff, Renaming.mem_heads_apply, h.secondStart]
  refine ⟨⟨A, hhead, rfl⟩, fun heq => hstart ?_⟩
  exact h.injective A (List.mem_cons_of_mem _ hhead) _ List.mem_cons_self heq

theorem assigns (h : r.IsRenamed m) : r.Assigns (r.assignment (r.sources.map m.rename)) := by
  refine assigns_assignment_map ?_ fun _ => h.mem_targets
  intro A hA B hB
  exact h.injective_heads A (mem_sources_iff.mp hA).1 B (mem_sources_iff.mp hB).1

theorem rename_eq (h : r.IsRenamed m) (hA : A = r.firstStart ∨ A ∈ r.first.heads) :
    (r.assignment (r.sources.map m.rename)).rename A = m.rename A := by
  by_cases hstart : A = r.firstStart
  · rw [hstart, h.assigns.start, h.secondStart]
  · exact rename_assignment_source (mem_sources_iff.mpr ⟨hA.resolve_left hstart, hstart⟩)

theorem admits (h : r.IsRenamed m) : r.Admits (r.assignment (r.sources.map m.rename)) := by
  intro A hA
  have hhead := (mem_sources_iff.mp hA).1
  have hprofile : (r.first.analysis.shape A).profile =
      (r.second.analysis.shape (m.rename A)).profile := by
    rw [h.sameRules.profile_eq, Renaming.profile_apply h.injective_heads hhead]
  rw [rename_assignment_source hA]
  simp [RenamingSearch.admits, Shape.compatible, hprofile]

theorem descFactorial_le (h : r.IsRenamed m) (hlarge : r.tooLarge = false) :
    r.targets.length.descFactorial r.sources.length ≤ candidateCeiling := by
  have hheads : r.first.heads.length ≤ maxSearchHeads :=
    Nat.not_lt.mp (decide_eq_false_iff_not.mp hlarge)
  have hsources : r.sources.length ≤ maxSearchHeads :=
    Nat.le_trans (List.length_filter_le _ _) hheads
  have htargets : r.targets.length ≤ maxSearchHeads := by
    have hsecond := h.sameRules.heads_perm.length_eq
    have hrenamed := m.length_heads_apply_le r.first
    have hfilter : r.targets.length ≤ r.second.heads.length := List.length_filter_le _ _
    omega
  calc r.targets.length.descFactorial r.sources.length
      ≤ r.targets.length ^ r.sources.length := Nat.descFactorial_le_pow _ _
    _ ≤ maxSearchHeads ^ r.sources.length := Nat.pow_le_pow_left htargets _
    _ ≤ maxSearchHeads ^ maxSearchHeads := Nat.pow_le_pow_right (by decide) hsources
    _ ≤ candidateCeiling := by decide

theorem assignment_mem_candidates (h : r.IsRenamed m) (hlarge : r.tooLarge = false)
    (hlimit : r.candidateLimit = none) :
    r.assignment (r.sources.map m.rename) ∈ r.candidates := by
  have hmem := h.assigns.assignment_mem_candidates h.admits hlarge hlimit (h.descFactorial_le hlarge)
  have hsources : r.sources.map (r.assignment (r.sources.map m.rename)).rename =
      r.sources.map m.rename := List.map_congr_left fun A hA => rename_assignment_source hA
  rwa [hsources] at hmem

/-- Some candidate has the entries of the renaming for the heads and the start symbol. -/
theorem exists_candidate (h : r.IsRenamed m) (hlarge : r.tooLarge = false)
    (hlimit : r.candidateLimit = none) :
    ∃ n ∈ r.candidates, n.Agrees (m.restrict (r.firstStart :: r.first.heads)) := by
  have hmem := h.assignment_mem_candidates hlarge hlimit
  have hkeys := (isAssignment_of_mem_candidates hmem).keys
  refine ⟨_, hmem, fun A => ?_⟩
  unfold Renaming.restrict Renaming.ofPairs
  rw [OrderedMap.get?_ofList_map]
  split
  · rename_i hA
    rw [List.mem_cons] at hA
    exact (Renaming.get?_of_mem_keys ((hkeys A).mpr hA)).trans (congrArg some (h.rename_eq hA))
  · rename_i hA
    rw [List.mem_cons, ← hkeys A] at hA
    exact OrderedMap.get?_eq_none_iff.mpr hA

theorem isMatch (h : r.IsRenamed m) (hstep : r.stepLimit = none) :
    r.Matches (r.assignment (r.sources.map m.rename)) := by
  have happly : (r.assignment (r.sources.map m.rename)).apply r.first = m.apply r.first :=
    Renaming.apply_congr fun A hA => h.rename_eq (.inr (Grammar.mem_heads_of_mentioned h.undefined hA))
  unfold Matches
  rw [happly, hstep, h.sameRules.language_eq]

theorem isSome_find? (h : r.IsRenamed m) (hlarge : r.tooLarge = false)
    (hlimit : r.candidateLimit = none) (hstep : r.stepLimit = none) : r.find?.isSome := by
  have hmem := h.assignment_mem_candidates hlarge hlimit
  rw [find?_eq, List.find?_isSome]
  exact ⟨_, hmem, accepts_iff.mpr (h.isMatch hstep)⟩

end IsRenamed

/-- **The filter hides no renaming.**  For a grammar that defines all its non-terminals the search finds
the way to its renamed form, in whatever order the rules of that stand. -/
theorem search_of_renamed (g : Grammar) (s : NonTerminal) (m : Renaming) (h : Grammar)
    (hundefined : g.undefined = []) (hsize : g.heads.length ≤ maxSearchHeads)
    (hm : m.InjectiveOn (s :: g.heads)) (hh : h.SameRules (m.apply g)) (b : Bounds)
    (filter : Bool) :
    (∀ limit, ∃ n ∈ (RenamingSearch.mk g s h (m.rename s) b filter none limit).candidates,
      n.Agrees (m.restrict (s :: g.heads))) ∧
    (RenamingSearch.mk g s h (m.rename s) b filter none none).find?.isSome := by
  have hlarge : decide (maxSearchHeads < g.heads.length) = false :=
    decide_eq_false (Nat.not_lt.mpr hsize)
  have hrenamed : ∀ limit, (RenamingSearch.mk g s h (m.rename s) b filter none limit).IsRenamed m :=
    fun _ => ⟨hundefined, hm, hh, rfl⟩
  exact ⟨fun limit => (hrenamed limit).exists_candidate hlarge rfl,
    (hrenamed none).isSome_find? hlarge rfl rfl⟩

/-- `S -> aA | B`, `A -> a` and `B -> *` with `A` and `B` exchanged and the rules listed backwards: the
filter leaves one candidate, which is the exchange. -/
theorem search_of_exchanged :
    let S : NonTerminal := ⟨'S'⟩
    let A : NonTerminal := ⟨'A'⟩
    let B : NonTerminal := ⟨'B'⟩
    let g := Grammar.ofProductions [(S, [.terminal 'a', .nonTerminal A]), (S, [.nonTerminal B]),
      (A, [.terminal 'a']), (B, [.marker])]
    let m := Renaming.ofPairs [(A, B), (B, A)]
    let h := Grammar.ofProductions [(A, [.marker]), (B, [.terminal 'a']), (S, [.nonTerminal A]),
      (S, [.terminal 'a', .nonTerminal B])]
    let r : RenamingSearch := ⟨g, S, h, S, ⟨3, some 2⟩, true, none, none⟩
    (g.undefined = [] ∧ g.heads.length ≤ maxSearchHeads ∧ m.InjectiveOn (S :: g.heads) ∧
      h.SameRules (m.apply g)) ∧
    r.candidates = [.ofPairs [(S, S), (A, B), (B, A)]] ∧
    (∃ n ∈ r.candidates, n.Agrees (m.restrict (S :: g.heads))) ∧ r.find?.isSome := by
  intro S A B g m h r
  have hundefined : g.undefined = [] := by decide
  have hsize : g.heads.length ≤ maxSearchHeads := by decide
  have hm : m.InjectiveOn (S :: g.heads) := by decide
  have hh : h.SameRules (m.apply g) := by decide
  obtain ⟨hcandidate, hfound⟩ := search_of_renamed g S m h hundefined hsize hm hh ⟨3, some 2⟩ true
  exact ⟨⟨hundefined, hsize, hm, hh⟩, by decide +kernel, hcandidate none, hfound⟩

end RenamingSearch
end GrammarComparison
