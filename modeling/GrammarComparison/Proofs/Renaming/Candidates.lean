import GrammarComparison.Proofs.Arrangement
import GrammarComparison.Proofs.Renaming.Invariance

/-! # The candidates of a search

A candidate sends the first start symbol to the second, the other heads of the first grammar to
different heads of the second other than its start symbol, and leaves everything else alone
(`Assigns`, `assigns_of_mem_candidates`).  It is injective on the non-terminals of the first
grammar unless one that has no productions happens to be called like a target: then the candidate
captures it.

Without such a capture every candidate leads to the language that the first grammar enumerates
anyway (`Assigns.language_apply`).  A search, which finds the first candidate that it accepts
(`find?_eq`), then finds its first candidate or nothing at all, and a comparison never finds
equivalence under a renaming (`search_of_capturesNothing`). -/

namespace GrammarComparison.RenamingSearch

variable {r : RenamingSearch} {m : Renaming} {A B : NonTerminal}

/-! ### What candidates are -/

/-- The renaming pairs the start symbols and gives each other head of the first grammar a target of
its own. -/
structure Assigns (r : RenamingSearch) (m : Renaming) : Prop where
  start : m.rename r.firstStart = r.secondStart
  target_mem : ∀ A ∈ r.sources, m.rename A ∈ r.targets
  injective : ∀ A ∈ r.sources, ∀ B ∈ r.sources, m.rename A = m.rename B → A = B
  /-- All other non-terminals stay. -/
  rest : ∀ A, A ≠ r.firstStart → A ∉ r.sources → m.rename A = A

theorem nodup_sources (r : RenamingSearch) : r.sources.Nodup := r.first.nodup_heads.filter _

theorem nodup_targets (r : RenamingSearch) : r.targets.Nodup := r.second.nodup_heads.filter _

theorem mem_sources_iff : A ∈ r.sources ↔ A ∈ r.first.heads ∧ A ≠ r.firstStart := by
  simp [sources]

theorem mem_targets_iff : A ∈ r.targets ↔ A ∈ r.second.heads ∧ A ≠ r.secondStart := by
  simp [targets]

/-- The renaming that pairs the start symbols and the sources with `ts`. -/
def assignment (r : RenamingSearch) (ts : List NonTerminal) : Renaming :=
  .ofPairs ((r.firstStart, r.secondStart) :: r.sources.zip ts)

/-- The filter, if it is on, lets every source pass with its target. -/
def Admits (r : RenamingSearch) (m : Renaming) : Prop :=
  ∀ A ∈ r.sources, r.admits r.first.analysis r.second.analysis (A, m.rename A) = true

instance (r : RenamingSearch) (m : Renaming) : Decidable (r.Admits m) :=
  inferInstanceAs (Decidable (∀ A ∈ r.sources, _ = true))

theorem map_fst_zip {ts : List NonTerminal} (hlength : ts.length = r.sources.length) :
    (r.sources.zip ts).map Prod.fst = r.sources := List.map_fst_zip (Nat.le_of_eq hlength.symm)

theorem pairs_assignment {ts : List NonTerminal} (hlength : ts.length = r.sources.length) :
    (r.assignment ts).pairs = (r.firstStart, r.secondStart) :: r.sources.zip ts := by
  refine OrderedMap.entries_ofList ?_
  rw [List.map_cons, map_fst_zip hlength, List.nodup_cons]
  exact ⟨fun h => (mem_sources_iff.mp h).2 rfl, r.nodup_sources⟩

theorem get?_assignment {ts : List NonTerminal} (hlength : ts.length = r.sources.length)
    (A : NonTerminal) :
    (r.assignment ts).get? A =
      if r.firstStart = A then some r.secondStart else OrderedMap.find? A (r.sources.zip ts) := by
  have hget : (r.assignment ts).get? A = OrderedMap.find? A (r.assignment ts).pairs := rfl
  rw [hget, pairs_assignment hlength]
  rfl

theorem rename_of_mem_zip {ts : List NonTerminal} (hlength : ts.length = r.sources.length)
    (hpair : (A, B) ∈ r.sources.zip ts) : (r.assignment ts).rename A = B := by
  have hstart : r.firstStart ≠ A := Ne.symm (mem_sources_iff.mp (List.of_mem_zip hpair).1).2
  have hnodup : ((r.sources.zip ts).map Prod.fst).Nodup := by
    rw [map_fst_zip hlength]
    exact r.nodup_sources
  unfold Renaming.rename
  rw [get?_assignment hlength, if_neg hstart, OrderedMap.find?_eq_some_of_mem hnodup hpair]
  rfl

theorem zip_eq_map {ts : List NonTerminal} (hlength : ts.length = r.sources.length) :
    r.sources.zip ts = r.sources.map fun A => (A, (r.assignment ts).rename A) := by
  conv_rhs => rw [← map_fst_zip hlength, List.map_map]
  refine (List.map_id _).symm.trans (List.map_congr_left ?_)
  rintro ⟨A, B⟩ hpair
  simp only [id_eq, Function.comp_apply, rename_of_mem_zip hlength hpair]

theorem pair_mem_zip {ts : List NonTerminal} (hlength : ts.length = r.sources.length)
    (hA : A ∈ r.sources) : (A, (r.assignment ts).rename A) ∈ r.sources.zip ts := by
  rw [zip_eq_map hlength]
  exact List.mem_map_of_mem hA

theorem candidate?_eq {ts : List NonTerminal} (hlength : ts.length = r.sources.length) :
    r.candidate? r.first.analysis r.second.analysis ts =
      if r.Admits (r.assignment ts) then some (r.assignment ts) else none := by
  have hadmits : (r.sources.zip ts).all (r.admits r.first.analysis r.second.analysis) = true ↔
      r.Admits (r.assignment ts) := by
    rw [zip_eq_map hlength, List.all_map, List.all_eq_true]
    rfl
  unfold candidate?
  simp only [hadmits]
  rfl

theorem exists_assignment_of_mem_candidates (h : m ∈ r.candidates) :
    ∃ ts, ts.length = r.sources.length ∧ ts.Nodup ∧ (∀ t ∈ ts, t ∈ r.targets) ∧
      r.Admits (r.assignment ts) ∧ m = r.assignment ts := by
  unfold candidates at h
  split at h
  · simp at h
  · obtain ⟨ts, hts, hm⟩ := List.mem_filterMap.mp (List.mem_of_mem_take h)
    obtain ⟨hlength, hnodup, hmem⟩ := (mem_arrangements_iff r.nodup_targets).mp hts
    rw [candidate?_eq hlength] at hm
    split at hm
    · rename_i hadmits
      exact ⟨ts, hlength, hnodup, hmem, hadmits, (Option.some.inj hm).symm⟩
    · simp at hm

theorem assigns_assignment {ts : List NonTerminal} (hlength : ts.length = r.sources.length)
    (hnodup : ts.Nodup) (hmem : ∀ t ∈ ts, t ∈ r.targets) : r.Assigns (r.assignment ts) where
  start := by
    unfold Renaming.rename
    rw [get?_assignment hlength, if_pos rfl]
    rfl
  target_mem := fun _ hA => hmem _ (List.of_mem_zip (pair_mem_zip hlength hA)).2
  injective := by
    intro A hA B hB hAB
    have hsnd : ((r.sources.zip ts).map Prod.snd).Nodup := by
      rw [List.map_snd_zip (Nat.le_of_eq hlength)]
      exact hnodup
    have hpairs := List.inj_on_of_nodup_map hsnd (pair_mem_zip hlength hA) (pair_mem_zip hlength hB)
    exact congrArg Prod.fst (hpairs hAB)
  rest := by
    intro A hstart hA
    rw [← map_fst_zip hlength] at hA
    unfold Renaming.rename
    rw [get?_assignment hlength, if_neg (Ne.symm hstart), OrderedMap.find?_eq_none_iff.mpr hA]
    rfl

/-- **What candidates are**: they pair the start symbols and give every other head of the first
grammar a target of its own. -/
theorem assigns_of_mem_candidates (h : m ∈ r.candidates) : r.Assigns m := by
  obtain ⟨ts, hlength, hnodup, hmem, _, rfl⟩ := exists_assignment_of_mem_candidates h
  exact assigns_assignment hlength hnodup hmem

theorem admits_of_mem_candidates (h : m ∈ r.candidates) : r.Admits m := by
  obtain ⟨ts, _, _, _, hadmits, rfl⟩ := exists_assignment_of_mem_candidates h
  exact hadmits

/-! ### Captures -/

/-- No undefined non-terminal of the first grammar, its start symbol aside, is called like a target
or like the second start symbol. -/
def CapturesNothing (r : RenamingSearch) : Prop :=
  ∀ A ∈ r.first.undefined, A ≠ r.firstStart → A ∉ r.second.heads ∧ A ≠ r.secondStart

instance (r : RenamingSearch) : Decidable r.CapturesNothing :=
  inferInstanceAs (Decidable (∀ A ∈ r.first.undefined, A ≠ r.firstStart →
    A ∉ r.second.heads ∧ A ≠ r.secondStart))

theorem mem_sources_or_undefined (hA : A ∈ r.firstStart :: r.first.mentioned)
    (hstart : A ≠ r.firstStart) : A ∈ r.sources ∨ A ∈ r.first.undefined := by
  have hmentioned := List.mem_of_ne_of_mem hstart hA
  by_cases hhead : A ∈ r.first.heads
  · exact .inl (mem_sources_iff.mpr ⟨hhead, hstart⟩)
  · exact .inr (Grammar.mem_undefined_iff.mpr ⟨hmentioned, hhead⟩)

theorem not_mem_sources_of_undefined (hA : A ∈ r.first.undefined) : A ∉ r.sources := by
  intro h
  exact (Grammar.mem_undefined_iff.mp hA).2 (mem_sources_iff.mp h).1

namespace Assigns

theorem rename_ne_secondStart (hm : r.Assigns m) (hr : r.CapturesNothing)
    (hA : A ∈ r.firstStart :: r.first.mentioned) (hstart : A ≠ r.firstStart) :
    m.rename A ≠ r.secondStart := by
  rcases mem_sources_or_undefined hA hstart with hsource | hundefined
  · exact (mem_targets_iff.mp (hm.target_mem A hsource)).2
  · rw [hm.rest A hstart (not_mem_sources_of_undefined hundefined)]
    exact (hr A hundefined hstart).2

theorem rename_undefined_ne (hm : r.Assigns m) (hr : r.CapturesNothing)
    (hA : A ∈ r.first.undefined) (hstart : A ≠ r.firstStart) (hB : B ∈ r.sources) :
    m.rename A ≠ m.rename B := by
  rw [hm.rest A hstart (not_mem_sources_of_undefined hA)]
  intro h
  have htarget := (mem_targets_iff.mp (hm.target_mem B hB)).1
  exact (hr A hA hstart).1 (h ▸ htarget)

/-- Without capture an assignment is injective on all non-terminals of the first grammar. -/
theorem injectiveOn (hm : r.Assigns m) (hr : r.CapturesNothing) :
    m.InjectiveOn (r.firstStart :: r.first.mentioned) := by
  intro A hA B hB hAB
  by_cases hA' : A = r.firstStart
  · by_cases hB' : B = r.firstStart
    · rw [hA', hB']
    · rw [hA', hm.start] at hAB
      exact absurd hAB.symm (hm.rename_ne_secondStart hr hB hB')
  · by_cases hB' : B = r.firstStart
    · rw [hB', hm.start] at hAB
      exact absurd hAB (hm.rename_ne_secondStart hr hA hA')
    · rcases mem_sources_or_undefined hA hA' with hsource | hundefined
      · rcases mem_sources_or_undefined hB hB' with hsource' | hundefined'
        · exact hm.injective A hsource B hsource' hAB
        · exact absurd hAB.symm (hm.rename_undefined_ne hr hundefined' hB' hsource)
      · rcases mem_sources_or_undefined hB hB' with hsource' | hundefined'
        · exact absurd hAB (hm.rename_undefined_ne hr hundefined hA' hsource')
        · rwa [hm.rest A hA' (not_mem_sources_of_undefined hundefined),
            hm.rest B hB' (not_mem_sources_of_undefined hundefined')] at hAB

/-- Without capture an assignment leads to the language that the first grammar enumerates anyway. -/
theorem language_apply (hm : r.Assigns m) (hr : r.CapturesNothing) (b : Bounds)
    (limit : Option Nat) :
    ((m.apply r.first).enumerate b limit r.secondStart).language =
      (r.first.enumerate b limit r.firstStart).language := by
  have henumerate := Renaming.enumerate_apply (hm.injectiveOn hr) b limit
  rw [hm.start] at henumerate
  rw [henumerate]

end Assigns

theorem language_of_capturesNothing (hr : r.CapturesNothing) (hm : m ∈ r.candidates) (b : Bounds)
    (limit : Option Nat) :
    ((m.apply r.first).enumerate b limit r.secondStart).language =
      (r.first.enumerate b limit r.firstStart).language :=
  (assigns_of_mem_candidates hm).language_apply hr b limit

/-! ### The first accepted candidate -/

theorem found_foldUntil (r : RenamingSearch) (l : Language) (as : List Attempt)
    (ms : List Renaming) :
    (stepValue (foldUntil (r.tryCandidate l) (as, none) ms)).2 =
      ms.find? fun m => (r.enumerateUnder m).language == l := by
  induction ms generalizing as with
  | nil => rfl
  | cons m ms ih =>
      rw [foldUntil, List.find?_cons, tryCandidate]
      by_cases h : (r.enumerateUnder m).language = l
      · simp [h, stepValue]
      · simp only [h, if_false, ih, beq_eq_false_iff_ne.mpr h]

theorem find?_eq (r : RenamingSearch) : r.find? = r.candidates.find? r.accepts := by
  unfold find? run
  dsimp only
  rw [foldCandidates_eq]
  exact found_foldUntil r r.target.language [] r.candidates

theorem mem_candidates_of_find? (h : r.find? = some m) :
    m ∈ r.candidates ∧ r.accepts m = true := by
  rw [find?_eq] at h
  exact ⟨List.mem_of_find?_eq_some h, List.find?_some h⟩

theorem accepts_of_capturesNothing (hr : r.CapturesNothing) (hm : m ∈ r.candidates) :
    r.accepts m =
      ((r.first.enumerate r.bounds r.stepLimit r.firstStart).language == r.target.language) := by
  unfold accepts enumerateUnder
  rw [language_of_capturesNothing hr hm]

/-- Without capture a search finds its first candidate if the grammars enumerate the same anyway,
and nothing otherwise. -/
theorem find?_of_capturesNothing (hr : r.CapturesNothing) :
    r.find? =
      if (r.first.enumerate r.bounds r.stepLimit r.firstStart).language = r.target.language
      then r.candidates.head? else none := by
  have haccepts := fun m hm => accepts_of_capturesNothing (m := m) hr hm
  rw [find?_eq]
  cases hcandidates : r.candidates with
  | nil => simp
  | cons m ms =>
      rw [hcandidates] at haccepts
      split
      · rename_i hsame
        rw [List.find?_cons, haccepts m List.mem_cons_self, hsame, beq_self_eq_true]
        rfl
      · rename_i hdiffer
        rw [List.find?_eq_none]
        intro m' hm'
        rw [haccepts m' hm', beq_eq_false_iff_ne.mpr hdiffer]
        simp

end GrammarComparison.RenamingSearch

namespace GrammarComparison.Config

theorem verdict_of_capturesNothing {c : Config} {first second : Grammar}
    {firstStart secondStart : NonTerminal}
    (hr : (c.search first firstStart second secondStart).CapturesNothing) :
    (c.compare first firstStart second secondStart).report.verdict ≠ .equivalentUnderRenaming := by
  unfold compare
  dsimp only
  split
  · simp [Report.verdict, Finding.verdict]
  · rename_i hdiffer
    split
    · simp [Report.verdict, Finding.verdict]
    · rename_i m hfound
      have hm : m ∈ (c.search first firstStart second secondStart).candidates :=
        (RenamingSearch.mem_candidates_of_find? hfound).1
      have hmapped : ((m.apply first).enumerate c.bounds c.stepLimit secondStart).language =
          (first.enumerate c.bounds c.stepLimit firstStart).language :=
        RenamingSearch.language_of_capturesNothing hr hm c.bounds c.stepLimit
      unfold Finding.ofRenaming
      rw [hmapped, if_neg hdiffer]
      simp [Report.verdict, Finding.verdict]

/-- **A renaming helps only by capture.**  Without it a search finds its first candidate if the grammars
enumerate the same anyway, and nothing otherwise. -/
theorem search_of_capturesNothing (c : Config) (first second : Grammar)
    (firstStart secondStart : NonTerminal)
    (hr : (c.search first firstStart second secondStart).CapturesNothing) :
    let r := c.search first firstStart second secondStart
    (∀ m ∈ r.candidates, ∀ b limit,
      ((m.apply first).enumerate b limit secondStart).language =
        (first.enumerate b limit firstStart).language) ∧
    (r.find? =
      if (first.enumerate r.bounds r.stepLimit firstStart).language =
        (second.enumerate r.bounds r.stepLimit secondStart).language
      then r.candidates.head? else none) ∧
    (c.compare first firstStart second secondStart).report.verdict ≠ .equivalentUnderRenaming := by
  refine ⟨?_, RenamingSearch.find?_of_capturesNothing hr, verdict_of_capturesNothing hr⟩
  intro m hm b limit
  exact RenamingSearch.language_of_capturesNothing hr hm b limit

/-- `S -> aA | D` and `A -> b` against `S -> aB | E` and `B -> b`: the undefined `D` is not captured,
and as both grammars enumerate `ab` alone the search finds its only candidate. -/
theorem search_without_capture :
    let S : NonTerminal := ⟨'S'⟩
    let A : NonTerminal := ⟨'A'⟩
    let B : NonTerminal := ⟨'B'⟩
    let first := Grammar.ofProductions [(S, [.terminal 'a', .nonTerminal A]),
      (S, [.nonTerminal ⟨'D'⟩]), (A, [.terminal 'b'])]
    let second := Grammar.ofProductions [(S, [.terminal 'a', .nonTerminal B]),
      (S, [.nonTerminal ⟨'E'⟩]), (B, [.terminal 'b'])]
    let c : Config := .ofBounds 2 3
    (c.search first S second S).CapturesNothing ∧
      (c.search first S second S).find? = some (.ofPairs [(S, S), (A, B)]) ∧
      (c.compare first S second S).report.verdict ≠ .equivalentUnderRenaming := by
  intro S A B first second c
  have hr : (c.search first S second S).CapturesNothing := by decide
  obtain ⟨_, hfind, hverdict⟩ := search_of_capturesNothing c first second S S hr
  refine ⟨hr, ?_, hverdict⟩
  rw [hfind]
  decide +kernel

/-- A capture can help: `S -> D` generates nothing, but `A -> c` may be renamed to `D -> c`. -/
example :
    let S : NonTerminal := ⟨'S'⟩
    let A : NonTerminal := ⟨'A'⟩
    let D : NonTerminal := ⟨'D'⟩
    let first := Grammar.ofProductions [(S, [.nonTerminal D]), (A, [.terminal 'c'])]
    let second := Grammar.ofProductions [(S, [.nonTerminal D]), (D, [.terminal 'c'])]
    ((Config.ofBounds 2 3).compare first S second S).report.verdict = .equivalentUnderRenaming := by
  decide +kernel

end GrammarComparison.Config
