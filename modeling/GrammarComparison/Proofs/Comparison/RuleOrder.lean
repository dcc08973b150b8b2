import GrammarComparison.Proofs.Comparison.LengthBounds
import GrammarComparison.Proofs.Grammar.RuleOrder

/-! # What the order of rules decides

Two searches may differ in nothing but the order of the rules of their grammars
(`RenamingSearch.SameRules`).  Without step limit they have the same solutions then
(`RenamingSearch.SameRules.solves`), but the order of the heads decides which one comes first: every
solution comes first in some order (`RenamingSearch.Solves.exists_order`).

A comparison keeps to the renaming that its search finds first, under bounds that may not be its
own.  So the order of the rules is of no account if and only if it judges all solutions alike
(`Config.compare_of_sameRules`), and it can decide whether equivalence is found if it does not
(`Config.isEquivalent_depends_on_order`). -/

namespace GrammarComparison

/-! ### Searches with the same rules -/

namespace RenamingSearch

variable {r s : RenamingSearch} {m : Renaming} {A : NonTerminal}

/-- The two searches differ in nothing but the order of the rules of their grammars. -/
structure SameRules (r s : RenamingSearch) : Prop where
  first : r.first.SameRules s.first
  second : r.second.SameRules s.second
  firstStart_eq : r.firstStart = s.firstStart
  secondStart_eq : r.secondStart = s.secondStart
  bounds_eq : r.bounds = s.bounds
  filterShapes_eq : r.filterShapes = s.filterShapes
  candidateLimit_eq : r.candidateLimit = s.candidateLimit
  stepLimit_eq : r.stepLimit = s.stepLimit

namespace SameRules

theorem symm (e : r.SameRules s) : s.SameRules r :=
  ⟨e.first.symm, e.second.symm, e.firstStart_eq.symm, e.secondStart_eq.symm, e.bounds_eq.symm,
    e.filterShapes_eq.symm, e.candidateLimit_eq.symm, e.stepLimit_eq.symm⟩

theorem tooLarge_eq (e : r.SameRules s) : r.tooLarge = s.tooLarge := by
  unfold tooLarge
  rw [e.first.heads_perm.length_eq]

theorem sources_perm (e : r.SameRules s) : r.sources.Perm s.sources := by
  unfold sources
  rw [e.firstStart_eq]
  exact e.first.heads_perm.filter _

theorem targets_perm (e : r.SameRules s) : r.targets.Perm s.targets := by
  unfold targets
  rw [e.secondStart_eq]
  exact e.second.heads_perm.filter _

theorem withinCeiling (e : r.SameRules s) (h : r.WithinCeiling) : s.WithinCeiling := by
  unfold WithinCeiling at h ⊢
  rwa [e.tooLarge_eq, e.sources_perm.length_eq, e.targets_perm.length_eq] at h

theorem isAssignment (e : r.SameRules s) (hm : r.IsAssignment m) : s.IsAssignment m where
  keys := by
    intro A
    rw [← e.firstStart_eq, ← e.first.mem_heads_iff]
    exact hm.keys A
  start := by
    rw [← e.firstStart_eq, ← e.secondStart_eq]
    exact hm.start
  target_mem := by
    intro A B
    rw [← e.firstStart_eq, ← e.secondStart_eq, ← e.second.mem_heads_iff]
    exact hm.target_mem A B
  injective := hm.injective

theorem admits (e : r.SameRules s) (hm : r.Admits m) : s.Admits m := by
  intro A hA
  have hadmits := hm A (e.sources_perm.mem_iff.mpr hA)
  unfold RenamingSearch.admits Shape.compatible at hadmits ⊢
  rwa [e.filterShapes_eq, e.first.profile_eq, e.second.profile_eq] at hadmits

theorem isMatch (e : r.SameRules s) (hstep : r.stepLimit = none) (hm : r.Matches m) :
    s.Matches m := by
  unfold Matches at hm ⊢
  rw [hstep] at hm
  rw [← e.stepLimit_eq, ← e.bounds_eq, ← e.secondStart_eq, hstep, ← (e.first.apply m).language_eq,
    ← e.second.language_eq, hm]

theorem solves (e : r.SameRules s) (hstep : r.stepLimit = none) (hm : r.Solves m) : s.Solves m :=
  ⟨e.isAssignment hm.isAssignment, e.admits hm.admits, e.isMatch hstep hm.isMatch⟩

theorem solves_iff (e : r.SameRules s) (hstep : r.stepLimit = none) : r.Solves m ↔ s.Solves m :=
  ⟨e.solves hstep, e.symm.solves (e.stepLimit_eq ▸ hstep)⟩

theorem isSome_find?_iff (e : r.SameRules s) (hstep : r.stepLimit = none)
    (hlimit : r.candidateLimit = none) (hceiling : r.WithinCeiling) :
    r.find?.isSome ↔ s.find?.isSome := by
  rw [RenamingSearch.isSome_find?_iff hlimit hceiling,
    RenamingSearch.isSome_find?_iff (e.candidateLimit_eq ▸ hlimit) (e.withinCeiling hceiling),
    e.tooLarge_eq]
  exact and_congr_right fun _ => exists_congr fun _ => e.solves_iff hstep

end SameRules

/-- The heads of the second grammar can be listed so that the targets of an assignment come first, in
the order of their sources. -/
theorem Assigns.exists_order (hm : r.Assigns m) :
    ∃ h us, r.second.SameRules h ∧
      { r with second := h }.targets = r.sources.map m.rename ++ us := by
  have hsubset : ∀ B ∈ r.sources.map m.rename, B ∈ r.second.heads ∧ B ≠ r.secondStart := by
    intro B hB
    obtain ⟨A, hA, rfl⟩ := List.mem_map.mp hB
    exact mem_targets_iff.mp (hm.target_mem A hA)
  have hnodup := List.Nodup.map_on hm.injective r.nodup_sources
  generalize r.sources.map m.rename = ts at hsubset hnodup
  have hperm := append_rest_perm r.second.nodup_heads hnodup fun B hB => (hsubset B hB).1
  refine ⟨r.second.withHeads _, (r.second.heads.filter (· ∉ ts)).filter (· ≠ r.secondStart),
    Grammar.sameRules_withHeads hperm, ?_⟩
  unfold targets
  dsimp only
  -- No target is the start symbol, so that leaving it out changes nothing in front.
  rw [Grammar.heads_withHeads hperm, List.filter_append, List.filter_eq_self.mpr]
  exact fun B hB => decide_eq_true (hsubset B hB).2

/-- Every solution is found for some order of the second grammar, or one that does the same. -/
theorem Solves.exists_order (hm : r.Solves m) (hlarge : r.tooLarge = false)
    (hlimit : r.candidateLimit = none) (hstep : r.stepLimit = none) :
    ∃ h, r.second.SameRules h ∧
      ∃ n, { r with second := h }.find? = some n ∧ n.apply r.first = m.apply r.first := by
  obtain ⟨h, us, hh, htargets⟩ := hm.isAssignment.assigns.exists_order
  have e : r.SameRules { r with second := h } := ⟨.refl _, hh, rfl, rfl, rfl, rfl, rfl, rfl⟩
  have hm' := e.solves hstep hm
  exact ⟨h, hh, _, hm'.find?_of_targets hlarge hlimit htargets,
    hm'.isAssignment.assigns.apply_assignment_map _⟩

end RenamingSearch

namespace Config

variable {c : Config} {first second g h : Grammar} {firstStart secondStart : NonTerminal}
  {m : Renaming}

/-! ### Judging solutions -/

theorem language_of_sameRules (hstep : c.stepLimit = none) (e : g.SameRules h) (A : NonTerminal) :
    c.language g A = c.language h A := by
  unfold language
  rw [hstep, e.language_eq]

theorem holds_iff_of_sameRules (hstep : c.stepLimit = none) (hfirst : first.SameRules g)
    (hsecond : second.SameRules h) :
    c.Holds first second secondStart m ↔ c.Holds g h secondStart m := by
  unfold Holds
  rw [language_of_sameRules hstep (hfirst.apply m), language_of_sameRules hstep hsecond]

theorem sameRules_search (hfirst : first.SameRules g) (hsecond : second.SameRules h) :
    (c.search first firstStart second secondStart).SameRules
      (c.search g firstStart h secondStart) :=
  ⟨hfirst, hsecond, rfl, rfl, rfl, rfl, rfl, rfl⟩

/-- The comparison judges all solutions of its search alike: if the languages differ and there is a
search at all, its solutions hold in the comparison all or none. -/
def JudgesAlike (c : Config) (first : Grammar) (firstStart : NonTerminal) (second : Grammar)
    (secondStart : NonTerminal) : Prop :=
  c.language first firstStart ≠ c.language second secondStart →
    (c.search first firstStart second secondStart).tooLarge = false →
    ∀ m n, (c.search first firstStart second secondStart).Solves m →
      (c.search first firstStart second secondStart).Solves n →
      (c.Holds first second secondStart m ↔ c.Holds first second secondStart n)

theorem judgesAlike_of_holds
    (hholds : ∀ m, (c.search first firstStart second secondStart).Solves m →
      c.Holds first second secondStart m) :
    c.JudgesAlike first firstStart second secondStart :=
  fun _ _ m n hm hn => iff_of_true (hholds m hm) (hholds n hn)

theorem judgesAlike_of_capturesNothing
    (hr : (c.search first firstStart second secondStart).CapturesNothing) :
    c.JudgesAlike first firstStart second secondStart := by
  intro _ _ m n hm hn
  have hlanguage : ∀ k, (c.search first firstStart second secondStart).Solves k →
      c.language (k.apply first) secondStart = c.language first firstStart := fun k hk =>
    hk.isAssignment.assigns.language_apply hr c.bounds c.stepLimit
  unfold Holds
  rw [hlanguage m hm, hlanguage n hn]

theorem JudgesAlike.of_sameRules (halike : c.JudgesAlike first firstStart second secondStart)
    (hstep : c.stepLimit = none) (hfirst : first.SameRules g) (hsecond : second.SameRules h) :
    c.JudgesAlike g firstStart h secondStart := by
  have e : (c.search first firstStart second secondStart).SameRules
      (c.search g firstStart h secondStart) := sameRules_search hfirst hsecond
  intro hne hlarge m n hm hn
  rw [← language_of_sameRules hstep hfirst, ← language_of_sameRules hstep hsecond] at hne
  rw [← e.tooLarge_eq] at hlarge
  rw [← e.solves_iff hstep] at hm hn
  rw [← holds_iff_of_sameRules hstep hfirst hsecond, ← holds_iff_of_sameRules hstep hfirst hsecond]
  exact halike hne hlarge m n hm hn

/-! ### The outcome of a comparison -/

theorem JudgesAlike.isEquivalent_iff (halike : c.JudgesAlike first firstStart second secondStart)
    (hlimit : c.candidateLimit = none)
    (hceiling : (c.search first firstStart second secondStart).WithinCeiling) :
    (c.compare first firstStart second secondStart).report.isEquivalent = true ↔
      c.language first firstStart = c.language second secondStart ∨
      (c.search first firstStart second secondStart).tooLarge = false ∧
        ∃ m, (c.search first firstStart second secondStart).Solves m ∧
          c.Holds first second secondStart m := by
  have hfound := RenamingSearch.isSome_find?_iff hlimit hceiling
  rw [Config.isEquivalent_iff]
  by_cases heq : c.language first firstStart = c.language second secondStart
  · exact iff_of_true (.inl heq) (.inl heq)
  refine or_congr_right ⟨?_, ?_⟩
  · rintro ⟨m, hfind, hholds⟩
    exact ⟨(hfound.mp (hfind ▸ rfl)).1, m, RenamingSearch.solves_of_find? hfind, hholds⟩
  · rintro ⟨hlarge, m, hm, hholds⟩
    -- What is found may be another solution than `m`, but it is judged like `m`.
    obtain ⟨n, hfind⟩ := Option.isSome_iff_exists.mp (hfound.mpr ⟨hlarge, m, hm⟩)
    exact ⟨n, hfind, (halike heq hlarge m n hm (RenamingSearch.solves_of_find? hfind)).mp hholds⟩

/-- If all solutions are judged alike, the order of the rules is of no account. -/
theorem JudgesAlike.isEquivalent_eq (halike : c.JudgesAlike first firstStart second secondStart)
    (hstep : c.stepLimit = none) (hlimit : c.candidateLimit = none)
    (hceiling : (c.search first firstStart second secondStart).WithinCeiling)
    (hfirst : first.SameRules g) (hsecond : second.SameRules h) :
    (c.compare g firstStart h secondStart).report.isEquivalent =
      (c.compare first firstStart second secondStart).report.isEquivalent := by
  have e : (c.search first firstStart second secondStart).SameRules
      (c.search g firstStart h secondStart) := sameRules_search hfirst hsecond
  rw [Bool.eq_iff_iff, halike.isEquivalent_iff hlimit hceiling,
    (halike.of_sameRules hstep hfirst hsecond).isEquivalent_iff hlimit (e.withinCeiling hceiling)]
  simp only [← e.tooLarge_eq, ← e.solves_iff hstep, ← holds_iff_of_sameRules hstep hfirst hsecond,
    ← language_of_sameRules hstep hfirst, ← language_of_sameRules hstep hsecond]

theorem exists_order_of_solves (hstep : c.stepLimit = none) (hlimit : c.candidateLimit = none)
    (hne : c.language first firstStart ≠ c.language second secondStart)
    (hlarge : (c.search first firstStart second secondStart).tooLarge = false)
    (hm : (c.search first firstStart second secondStart).Solves m) :
    ∃ h, second.SameRules h ∧
      ((c.compare first firstStart h secondStart).report.isEquivalent = true ↔
        c.Holds first second secondStart m) := by
  have hordered : ∃ h, second.SameRules h ∧
      ∃ n, (c.search first firstStart h secondStart).find? = some n ∧
        n.apply first = m.apply first := hm.exists_order hlarge hlimit hstep
  obtain ⟨h, hh, n, hfind, happly⟩ := hordered
  have hlanguage := language_of_sameRules hstep hh secondStart
  refine ⟨h, hh, ?_⟩
  rw [Config.isEquivalent_iff, ← hlanguage, or_iff_right hne, hfind]
  simp only [Option.some.injEq, exists_eq_left']
  unfold Holds
  rw [happly, ← hlanguage]

/-- If the order of the rules is of no account, all solutions are judged alike. -/
theorem judgesAlike_of_isEquivalent_eq (hstep : c.stepLimit = none)
    (hlimit : c.candidateLimit = none)
    (hsame : ∀ h, second.SameRules h →
      (c.compare first firstStart h secondStart).report.isEquivalent =
        (c.compare first firstStart second secondStart).report.isEquivalent) :
    c.JudgesAlike first firstStart second secondStart := by
  intro hne hlarge m n hm hn
  -- In one order `m` decides, in another `n`; both come to the same.
  obtain ⟨g, hg, hdecided⟩ := exists_order_of_solves hstep hlimit hne hlarge hm
  obtain ⟨h, hh, hdecided'⟩ := exists_order_of_solves hstep hlimit hne hlarge hn
  rw [← hdecided, ← hdecided', hsame g hg, hsame h hh]

/-- **When the order of rules is of no account**: just if the comparison judges all solutions of its search
alike. -/
theorem compare_of_sameRules (c : Config) (first : Grammar) (firstStart : NonTerminal)
    (second : Grammar) (secondStart : NonTerminal) (hstep : c.stepLimit = none)
    (hlimit : c.candidateLimit = none) :
    let r := c.search first firstStart second secondStart
    let report := fun g h => (c.compare g firstStart h secondStart).report
    (∀ g h, first.SameRules g → second.SameRules h →
      (report g h).first = (report first second).first ∧
      (report g h).second = (report first second).second ∧
      (r.WithinCeiling → ((report g h).finding.renaming?.isSome ↔
        (report first second).finding.renaming?.isSome))) ∧
    (r.WithinCeiling →
      ((∀ g h, first.SameRules g → second.SameRules h →
        (report g h).isEquivalent = (report first second).isEquivalent) ↔
      c.JudgesAlike first firstStart second secondStart)) ∧
    (c.searchMaxLen = some c.maxLen ∨
      (first.NonErasing ∧ second.NonErasing ∧ ∀ l, c.searchMaxLen = some l → c.maxLen ≤ l) ∨
      r.CapturesNothing →
      c.JudgesAlike first firstStart second secondStart) := by
  intro r report
  have hcertifies : ∀ g h, (report g h).Certifies c g firstStart h secondStart :=
    fun g h => (c.ending_compare g firstStart h secondStart).certifies
  refine ⟨?_, ?_, ?_⟩
  · intro g h hg hh
    have e : r.SameRules (c.search g firstStart h secondStart) := sameRules_search hg hh
    refine ⟨?_, ?_, fun hceiling => ?_⟩
    · rw [(hcertifies g h).first_eq, (hcertifies first second).first_eq,
        language_of_sameRules hstep hg]
    · rw [(hcertifies g h).second_eq, (hcertifies first second).second_eq,
        language_of_sameRules hstep hh]
    · rw [isSome_renaming?_iff, isSome_renaming?_iff, ← e.isSome_find?_iff hstep hlimit hceiling,
        language_of_sameRules hstep hg, language_of_sameRules hstep hh]
  · intro hceiling
    constructor
    · intro hsame
      exact judgesAlike_of_isEquivalent_eq hstep hlimit fun h hh => hsame first h (.refl _) hh
    · intro halike g h hg hh
      exact halike.isEquivalent_eq hstep hlimit hceiling hg hh
  · rintro (hbound | ⟨hfirst, hsecond, hfurther⟩ | hcapture)
    · exact judgesAlike_of_holds fun m hm => holds_of_same_bound hbound hm.isMatch
    · exact judgesAlike_of_holds fun m hm =>
        holds_of_further_search hstep hfirst hsecond hfurther hm.isMatch
    · exact judgesAlike_of_capturesNothing hcapture

/-- `S -> aB` and `A -> b` against `S -> aB` and `B -> b`, with the rules listed backwards: the
renaming of `A` to `B` is found all the same, and it holds. -/
theorem compare_backwards :
    let S : NonTerminal := ⟨'S'⟩
    let A : NonTerminal := ⟨'A'⟩
    let B : NonTerminal := ⟨'B'⟩
    let first := Grammar.ofProductions [(S, [.terminal 'a', .nonTerminal B]), (A, [.terminal 'b'])]
    let second := Grammar.ofProductions [(S, [.terminal 'a', .nonTerminal B]),
      (B, [.terminal 'b'])]
    let g := Grammar.ofProductions [(A, [.terminal 'b']), (S, [.terminal 'a', .nonTerminal B])]
    let h := Grammar.ofProductions [(B, [.terminal 'b']), (S, [.terminal 'a', .nonTerminal B])]
    let c : Config := .ofBounds 3 3
    let report := (c.compare first S second S).report
    let backwards := (c.compare g S h S).report
    (c.stepLimit = none ∧ c.candidateLimit = none ∧ (c.search first S second S).WithinCeiling ∧
      first.SameRules g ∧ second.SameRules h) ∧
    c.JudgesAlike first S second S ∧
    (backwards.first = report.first ∧ backwards.second = report.second ∧
      (backwards.finding.renaming?.isSome ↔ report.finding.renaming?.isSome)) ∧
    backwards.isEquivalent = report.isEquivalent ∧ report.isEquivalent = true := by
  intro S A B first second g h c report backwards
  have hceiling : (c.search first S second S).WithinCeiling := by decide
  have hg : first.SameRules g := by decide
  have hh : second.SameRules h := by decide
  have hfirst : first.NonErasing := by decide
  have hsecond : second.NonErasing := by decide
  have hfurther : ∀ l, c.searchMaxLen = some l → c.maxLen ≤ l := by
    intro l hl
    obtain rfl := Option.some.inj hl
    decide
  obtain ⟨hlanguages, horder, hjudges⟩ := compare_of_sameRules c first S second S rfl rfl
  have halike := hjudges (.inr (.inl ⟨hfirst, hsecond, hfurther⟩))
  obtain ⟨hfirst_eq, hsecond_eq, hrenaming⟩ := hlanguages g h hg hh
  exact ⟨⟨rfl, rfl, hceiling, hg, hh⟩, halike, ⟨hfirst_eq, hsecond_eq, hrenaming hceiling⟩,
    (horder hceiling).mpr halike g h hg hh, by decide +kernel⟩

/-- **The order of rules can decide whether equivalence is found.**  The undefined `D` may be captured by
`A` or by `C`.  Within one symbol only `A` gives `a`, but the search allows 15. -/
theorem isEquivalent_depends_on_order :
    let S : NonTerminal := ⟨'S'⟩
    let D : NonTerminal := ⟨'D'⟩
    let E : NonTerminal := ⟨'E'⟩
    let first := Grammar.ofProductions [(S, [.nonTerminal D]), (⟨'A'⟩, [.terminal 'a']),
      (⟨'C'⟩, [.marker, .terminal 'a'])]
    let second := Grammar.ofProductions [(S, [.terminal 'a']), (D, [.terminal 'c']),
      (E, [.terminal 'c'])]
    let reordered := Grammar.ofProductions [(S, [.terminal 'a']), (E, [.terminal 'c']),
      (D, [.terminal 'c'])]
    let c : Config := .ofBounds 3 1
    (c.stepLimit = none ∧ c.candidateLimit = none ∧ second.SameRules reordered) ∧
    (c.compare first S second S).report.isEquivalent = true ∧
    (c.compare first S reordered S).report.isEquivalent = false := by
  decide +kernel

end Config
end GrammarComparison
