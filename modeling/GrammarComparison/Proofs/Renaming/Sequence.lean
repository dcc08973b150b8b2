import Mathlib.Data.List.Sort
import GrammarComparison.Proofs.Renaming.Exhaustive

/-! # The sequence of candidates

A candidate is made of a choice of targets, a different one for each source (`IsChoice`).  The places
of the targets in their list put the choices into lexicographic order (`Precedes`), so that there is
just one list of all choices in order (`ListsChoices.unique`); the arrangements of the targets are that
list (`listsChoices_arrangements`).  The candidates are the entries of the choices in this list, less
those that the filter holds back, as far as the limit goes (`map_pairs_candidates`).  No candidate comes
twice and none merges two heads; their number is that of the choices if nothing is held back or cut off
(`candidates_in_order`). -/

namespace GrammarComparison.RenamingSearch

variable {r : RenamingSearch} {m : Renaming} {ts us : List NonTerminal}
  {tss uss : List (List NonTerminal)}

/-! ### Choices of targets -/

/-- The list names a target for each source, and none twice. -/
structure IsChoice (r : RenamingSearch) (ts : List NonTerminal) : Prop where
  length_eq : ts.length = r.sources.length
  nodup : ts.Nodup
  mem_targets : ∀ t ∈ ts, t ∈ r.targets

/-- Where the lists differ first, the target in `ts` stands before that in `us`. -/
def Precedes (r : RenamingSearch) (ts us : List NonTerminal) : Prop :=
  List.Lex (fun A B => r.targets.idxOf A < r.targets.idxOf B) ts us

/-- The list of all choices, in lexicographic order of the places of the targets. -/
structure ListsChoices (r : RenamingSearch) (tss : List (List NonTerminal)) : Prop where
  mem_iff : ∀ ts, ts ∈ tss ↔ r.IsChoice ts
  ascending : tss.Pairwise r.Precedes

/-- The entries of the candidate with the given targets: the start symbols are paired first. -/
def entriesOf (r : RenamingSearch) (ts : List NonTerminal) : List (NonTerminal × NonTerminal) :=
  (r.firstStart, r.secondStart) :: r.sources.zip ts

/-- The filter is off, or each source has the same profile as its target. -/
def Passes (r : RenamingSearch) (ts : List NonTerminal) : Prop :=
  r.filterShapes = true → ∀ p ∈ r.sources.zip ts,
    (r.first.analysis.shape p.1).profile = (r.second.analysis.shape p.2).profile

instance (r : RenamingSearch) (ts : List NonTerminal) : Decidable (r.Passes ts) :=
  inferInstanceAs (Decidable (_ → _))

/-! ### The list of all choices -/

instance (r : RenamingSearch) : Std.Irrefl r.Precedes :=
  ⟨List.lex_irrefl fun A => Nat.lt_irrefl (r.targets.idxOf A)⟩

instance (r : RenamingSearch) : Std.Antisymm r.Precedes :=
  ⟨fun _ _ hlt hgt => absurd hgt (List.lex_asymm Nat.lt_asymm hlt)⟩

/-- The choices can be listed in order in one way only. -/
theorem ListsChoices.unique (h : r.ListsChoices tss) (h' : r.ListsChoices uss) : tss = uss :=
  h.ascending.eq_of_mem_iff h'.ascending fun ts => (h.mem_iff ts).trans (h'.mem_iff ts).symm

theorem pairwise_targets (r : RenamingSearch) :
    r.targets.Pairwise fun A B => r.targets.idxOf A < r.targets.idxOf B := by
  rw [List.pairwise_iff_getElem]
  intro i j hi hj hij
  rwa [r.nodup_targets.idxOf_getElem i hi, r.nodup_targets.idxOf_getElem j hj]

/-- The arrangements of the targets are all choices, in order. -/
theorem listsChoices_arrangements (r : RenamingSearch) :
    r.ListsChoices (arrangements r.sources.length r.targets) where
  mem_iff := by
    intro ts
    rw [mem_arrangements_iff r.nodup_targets]
    exact ⟨fun h => ⟨h.1, h.2.1, h.2.2⟩, fun h => ⟨h.length_eq, h.nodup, h.mem_targets⟩⟩
  ascending := pairwise_arrangements r.pairwise_targets _

/-- There are `n (n - 1) ⋯ (n - k + 1)` choices of `n` targets for `k` sources. -/
theorem ListsChoices.length_eq (h : r.ListsChoices tss) :
    tss.length = r.targets.length.descFactorial r.sources.length := by
  rw [h.unique r.listsChoices_arrangements, length_arrangements]

/-! ### From choices to candidates -/

theorem admits_assignment_iff (hts : r.IsChoice ts) : r.Admits (r.assignment ts) ↔ r.Passes ts := by
  have hpair : ∀ p : NonTerminal × NonTerminal,
      r.admits r.first.analysis r.second.analysis p = true ↔ (r.filterShapes = true →
        (r.first.analysis.shape p.1).profile = (r.second.analysis.shape p.2).profile) := by
    intro p
    unfold admits Shape.compatible
    cases r.filterShapes <;> simp
  unfold Admits Passes
  rw [zip_eq_map hts.length_eq, List.forall_mem_map]
  simp only [hpair]
  exact ⟨fun h hfilter A hA => h A hA hfilter, fun h A hA hfilter => h hfilter A hA⟩

theorem filter_admits (h : r.ListsChoices tss) :
    (tss.map r.assignment).filter (r.Admits ·) = (tss.filter (r.Passes ·)).map r.assignment := by
  rw [List.filter_map]
  refine congrArg (List.map r.assignment) (List.filter_congr fun ts hts => ?_)
  exact decide_eq_decide.mpr (admits_assignment_iff ((h.mem_iff ts).mp hts))

/-- **The candidates in order**: the entries of the choices that the filter lets pass, as far as the
limit goes. -/
theorem map_pairs_candidates (h : r.ListsChoices tss) (hlarge : r.tooLarge = false) :
    r.candidates.map Renaming.pairs =
      ((tss.filter (r.Passes ·)).map r.entriesOf).take r.limit := by
  have hentries : ∀ ts ∈ tss.filter (r.Passes ·),
      (Renaming.pairs ∘ r.assignment) ts = r.entriesOf ts := by
    intro ts hts
    exact pairs_assignment ((h.mem_iff ts).mp (List.mem_of_mem_filter hts)).length_eq
  rw [candidates_eq hlarge, ← h.unique r.listsChoices_arrangements, filter_admits h, List.map_take,
    List.map_map, List.map_congr_left hentries]

theorem entriesOf_injective (hts : r.IsChoice ts) (hus : r.IsChoice us)
    (h : r.entriesOf ts = r.entriesOf us) : ts = us := by
  have hzip : r.sources.zip ts = r.sources.zip us := (List.cons.inj h).2
  rw [← List.map_snd_zip (Nat.le_of_eq hts.length_eq), hzip,
    List.map_snd_zip (Nat.le_of_eq hus.length_eq)]

theorem nodup_candidates (r : RenamingSearch) : r.candidates.Nodup := by
  cases hlarge : r.tooLarge with
  | true =>
      unfold candidates
      rw [if_pos hlarge]
      exact List.nodup_nil
  | false =>
      have hchoices := r.listsChoices_arrangements
      refine List.Nodup.of_map Renaming.pairs ?_
      rw [map_pairs_candidates hchoices hlarge]
      refine (List.Nodup.map_on ?_ (hchoices.ascending.nodup.filter _)).take
      intro ts hts us hus
      exact entriesOf_injective ((hchoices.mem_iff ts).mp (List.mem_of_mem_filter hts))
        ((hchoices.mem_iff us).mp (List.mem_of_mem_filter hus))

/-! ### How many candidates there are -/

theorem length_candidates (hlarge : r.tooLarge = false) (hfilter : r.filterShapes = false)
    (hlimit : r.candidateLimit = none)
    (hceiling : r.targets.length.descFactorial r.sources.length ≤ candidateCeiling) :
    r.candidates.length = r.targets.length.descFactorial r.sources.length := by
  have hchoices := r.listsChoices_arrangements
  have hpass : ∀ ts ∈ arrangements r.sources.length r.targets, decide (r.Passes ts) = true :=
    fun _ _ => decide_eq_true (by simp [Passes, hfilter])
  rw [← List.length_map Renaming.pairs, map_pairs_candidates hchoices hlarge,
    List.filter_eq_self.mpr hpass, List.length_take, List.length_map, hchoices.length_eq, limit,
    hlimit]
  exact Nat.min_eq_right hceiling

theorem candidates_eq_nil (hfew : r.targets.length < r.sources.length) : r.candidates = [] := by
  have hnone : arrangements r.sources.length r.targets = [] := by
    rw [← List.length_eq_zero_iff, length_arrangements]
    exact Nat.descFactorial_eq_zero_iff_lt.mpr hfew
  unfold candidates
  simp [hnone]

/-- **The candidates are all choices of targets in lexicographic order**, less those that the filter holds
back and as far as the limit goes. -/
theorem candidates_in_order (r : RenamingSearch) :
    (∃! tss, r.ListsChoices tss) ∧
    (∀ tss, r.ListsChoices tss → r.candidates.map Renaming.pairs =
      if maxSearchHeads < r.first.heads.length then []
      else ((tss.filter (r.Passes ·)).map r.entriesOf).take
        (r.candidateLimit.getD candidateCeiling)) ∧
    r.candidates.Nodup ∧
    (let n := r.targets.length
      let k := r.sources.length
      (r.first.heads.length ≤ maxSearchHeads → r.filterShapes = false → r.candidateLimit = none →
        k ≤ n → n.factorial / (n - k).factorial ≤ candidateCeiling →
        r.candidates.length = n.factorial / (n - k).factorial) ∧
      (n < k → r.candidates = [])) ∧
    ∀ m ∈ r.candidates, m.InjectiveOn r.first.heads := by
  have hchoices := r.listsChoices_arrangements
  refine ⟨⟨_, hchoices, fun _ h => h.unique hchoices⟩, ?_, r.nodup_candidates,
    ⟨?_, candidates_eq_nil⟩, fun m hm => (isAssignment_of_mem_candidates hm).injectiveOn_heads⟩
  · intro tss htss
    split
    · rename_i hlarge
      unfold candidates tooLarge
      simp [hlarge]
    · rename_i hsize
      exact map_pairs_candidates htss (decide_eq_false hsize)
  · intro hsize hfilter hlimit hle hceiling
    rw [← Nat.descFactorial_eq_div hle] at hceiling ⊢
    exact length_candidates (decide_eq_false (Nat.not_lt.mpr hsize)) hfilter hlimit hceiling

/-- `A -> a`, `S -> A` and `B -> *` have six candidates against `Z -> c`, `T -> Z`, `Y -> d` and
`X -> *`.  The filter lets pass those that send `B` to `X`, and the first of them sends `A` to `Z`.  The
other way round there are too few targets. -/
theorem candidates_for_three_targets :
    let S : NonTerminal := ⟨'S'⟩
    let A : NonTerminal := ⟨'A'⟩
    let B : NonTerminal := ⟨'B'⟩
    let T : NonTerminal := ⟨'T'⟩
    let X : NonTerminal := ⟨'X'⟩
    let Y : NonTerminal := ⟨'Y'⟩
    let Z : NonTerminal := ⟨'Z'⟩
    let first := Grammar.ofProductions [(A, [.terminal 'a']), (S, [.nonTerminal A]), (B, [.marker])]
    let second := Grammar.ofProductions [(Z, [.terminal 'c']), (T, [.nonTerminal Z]),
      (Y, [.terminal 'd']), (X, [.marker])]
    let r : RenamingSearch := ⟨first, S, second, T, ⟨3, some 2⟩, false, none, none⟩
    let filtered : RenamingSearch := ⟨first, S, second, T, ⟨3, some 2⟩, true, some 1, none⟩
    let backwards : RenamingSearch := ⟨second, T, first, S, ⟨3, some 2⟩, false, none, none⟩
    (r.candidates.length = 6 ∧ ∀ m ∈ r.candidates, m.InjectiveOn [A, S, B]) ∧
    (filtered.ListsChoices [[Z, Y], [Z, X], [Y, Z], [Y, X], [X, Z], [X, Y]] ∧
      filtered.candidates.map Renaming.pairs = [[(S, T), (A, Z), (B, X)]]) ∧
    backwards.targets.length < backwards.sources.length ∧ backwards.candidates = [] := by
  intro S A B T X Y Z first second r filtered backwards
  have hchoices : filtered.ListsChoices [[Z, Y], [Z, X], [Y, Z], [Y, X], [X, Z], [X, Y]] := by
    have harranged : arrangements filtered.sources.length filtered.targets =
        [[Z, Y], [Z, X], [Y, Z], [Y, X], [X, Z], [X, Y]] := by decide
    exact harranged ▸ filtered.listsChoices_arrangements
  obtain ⟨_, _, _, ⟨hlength, _⟩, hinjective⟩ := candidates_in_order r
  obtain ⟨_, hpairs, _⟩ := candidates_in_order filtered
  obtain ⟨_, _, _, ⟨_, hnone⟩, _⟩ := candidates_in_order backwards
  have hfew : backwards.targets.length < backwards.sources.length := by decide
  refine ⟨⟨?_, hinjective⟩, ⟨hchoices, ?_⟩, hfew, hnone hfew⟩
  · exact (hlength (by decide) rfl rfl (by decide) (by decide)).trans (by decide)
  · rw [hpairs _ hchoices]
    decide +kernel

end GrammarComparison.RenamingSearch
