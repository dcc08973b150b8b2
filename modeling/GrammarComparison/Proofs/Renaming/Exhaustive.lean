import GrammarComparison.Proofs.Renaming.Candidates
import GrammarComparison.Proofs.Renaming.Composition

/-! # The search is sound and exhaustive

An assignment pairs the two start symbols and gives each other head of the first grammar a target of
its own among the other heads of the second (`IsAssignment`).  Every candidate of a search is one
(`isAssignment_of_mem_candidates`).  Conversely, if no limit cuts the candidates off, every
assignment that the filter lets pass acts like one of them (`Assigns.assignment_mem_candidates`): its
targets, in the order of their sources, are one of the arrangements that the search goes through.

So the search misses nothing: a solution is found if there is one and the first grammar has not too
many heads (`isSome_find?_iff`).  Whatever its settings, it reports the place of the first candidate
that matches (`Ending`, `ending_run`). -/

namespace GrammarComparison

namespace RenamingSearch

variable {r : RenamingSearch} {m n : Renaming} {A B : NonTerminal}

/-! ### Assignments -/

/-- The renaming pairs the start symbols, has the heads of the first grammar as its other keys, and
gives each of them a target of its own among the other heads of the second grammar. -/
structure IsAssignment (r : RenamingSearch) (m : Renaming) : Prop where
  keys : ∀ A, A ∈ m.targets.keys ↔ A = r.firstStart ∨ A ∈ r.first.heads
  start : m.get? r.firstStart = some r.secondStart
  target_mem : ∀ A B, m.get? A = some B → A ≠ r.firstStart →
    B ∈ r.second.heads ∧ B ≠ r.secondStart
  injective : ∀ A B C, m.get? A = some C → m.get? B = some C → A = B

theorem IsAssignment.injectiveOn_heads (hm : r.IsAssignment m) : m.InjectiveOn r.first.heads := by
  intro A hA B hB hAB
  have hgetA := Renaming.get?_of_mem_keys ((hm.keys A).mpr (.inr hA))
  have hgetB := Renaming.get?_of_mem_keys ((hm.keys B).mpr (.inr hB))
  exact hm.injective A B _ hgetA (hAB ▸ hgetB)

theorem IsAssignment.assigns (hm : r.IsAssignment m) : r.Assigns m where
  start := Renaming.rename_of_get? hm.start
  target_mem := by
    intro A hA
    obtain ⟨hhead, hne⟩ := mem_sources_iff.mp hA
    have hget := Renaming.get?_of_mem_keys ((hm.keys A).mpr (.inr hhead))
    exact mem_targets_iff.mpr (hm.target_mem A _ hget hne)
  injective := fun A hA B hB =>
    hm.injectiveOn_heads A (mem_sources_iff.mp hA).1 B (mem_sources_iff.mp hB).1
  rest := by
    intro A hne hA
    refine Renaming.rename_of_not_mem_keys fun hkey => ?_
    rcases (hm.keys A).mp hkey with hstart | hhead
    · exact hne hstart
    · exact hA (mem_sources_iff.mpr ⟨hhead, hne⟩)

theorem Assigns.isAssignment (hm : r.Assigns m)
    (hkeys : ∀ A, A ∈ m.targets.keys ↔ A = r.firstStart ∨ A ∈ r.first.heads) :
    r.IsAssignment m := by
  have hsource : ∀ A B, m.get? A = some B → A ≠ r.firstStart → A ∈ r.sources ∧ m.rename A = B := by
    intro A B hget hne
    rcases (hkeys A).mp (Renaming.mem_keys_of_get? hget) with hstart | hhead
    · exact absurd hstart hne
    · exact ⟨mem_sources_iff.mpr ⟨hhead, hne⟩, Renaming.rename_of_get? hget⟩
  have htarget : ∀ A B, m.get? A = some B → A ≠ r.firstStart →
      B ∈ r.second.heads ∧ B ≠ r.secondStart := by
    intro A B hget hne
    obtain ⟨hA, rfl⟩ := hsource A B hget hne
    exact mem_targets_iff.mp (hm.target_mem A hA)
  have hstart : m.get? r.firstStart = some r.secondStart := by
    rw [Renaming.get?_of_mem_keys ((hkeys _).mpr (.inl rfl)), hm.start]
  refine ⟨hkeys, hstart, htarget, ?_⟩
  intro A B C hA hB
  by_cases hA' : A = r.firstStart
  · by_cases hB' : B = r.firstStart
    · rw [hA', hB']
    · rw [hA', hstart] at hA
      exact absurd (Option.some.inj hA).symm (htarget B C hB hB').2
  · by_cases hB' : B = r.firstStart
    · rw [hB', hstart] at hB
      exact absurd (Option.some.inj hB).symm (htarget A C hA hA').2
    · obtain ⟨hsA, rfl⟩ := hsource A C hA hA'
      obtain ⟨hsB, hAB⟩ := hsource B _ hB hB'
      exact hm.injective A hsA B hsB hAB.symm

/-! ### Candidates are assignments -/

theorem keys_assignment {ts : List NonTerminal} (hlength : ts.length = r.sources.length) :
    (r.assignment ts).targets.keys = r.firstStart :: r.sources := by
  have hkeys : (r.assignment ts).targets.keys = (r.assignment ts).pairs.map Prod.fst := rfl
  rw [hkeys, pairs_assignment hlength, List.map_cons, map_fst_zip hlength]

theorem isAssignment_of_mem_candidates (h : m ∈ r.candidates) : r.IsAssignment m := by
  have hassigns := assigns_of_mem_candidates h
  obtain ⟨ts, hlength, _, _, _, rfl⟩ := exists_assignment_of_mem_candidates h
  refine hassigns.isAssignment fun A => ?_
  rw [keys_assignment hlength, List.mem_cons, mem_sources_iff]
  tauto

/-! ### Assignments are candidates -/

/-- The candidates are the assignments of all arrangements of targets, less those that the filter
holds back, as far as the limit goes. -/
theorem candidates_eq (hlarge : r.tooLarge = false) :
    r.candidates =
      (((arrangements r.sources.length r.targets).map r.assignment).filter (r.Admits ·)).take
        r.limit := by
  unfold candidates
  dsimp only
  rw [hlarge, if_neg Bool.false_ne_true, ← List.filterMap_eq_filter, List.filterMap_map]
  congr 1
  refine List.filterMap_congr fun ts hts => ?_
  rw [candidate?_eq ((mem_arrangements_iff r.nodup_targets).mp hts).1]
  simp [Option.guard]

theorem rename_assignment_source {f : NonTerminal → NonTerminal} (hA : A ∈ r.sources) :
    (r.assignment (r.sources.map f)).rename A = f A := by
  refine rename_of_mem_zip (List.length_map _) ?_
  rw [List.zip_eq_zipWith, List.zipWith_map_right, List.zipWith_self]
  exact List.mem_map_of_mem hA

theorem assigns_assignment_map {f : NonTerminal → NonTerminal}
    (hf : ∀ A ∈ r.sources, ∀ B ∈ r.sources, f A = f B → A = B)
    (hmem : ∀ A ∈ r.sources, f A ∈ r.targets) : r.Assigns (r.assignment (r.sources.map f)) := by
  refine assigns_assignment (List.length_map _) (List.Nodup.map_on hf r.nodup_sources) ?_
  intro t ht
  obtain ⟨B, hB, rfl⟩ := List.mem_map.mp ht
  exact hmem B hB

theorem rename_assignment_map (hm : r.Assigns m) (A : NonTerminal) :
    (r.assignment (r.sources.map m.rename)).rename A = m.rename A := by
  have hassigns := assigns_assignment_map hm.injective hm.target_mem
  by_cases hstart : A = r.firstStart
  · rw [hstart, hassigns.start, hm.start]
  · by_cases hA : A ∈ r.sources
    · exact rename_assignment_source hA
    · rw [hassigns.rest A hstart hA, hm.rest A hstart hA]

theorem Assigns.admits_assignment_map (hm : r.Assigns m) (hadmits : r.Admits m) :
    r.Admits (r.assignment (r.sources.map m.rename)) := by
  intro A hA
  rw [rename_assignment_map hm]
  exact hadmits A hA

/-- Without limit every assignment that the filter lets pass is a candidate, its entries in the order
of the sources. -/
theorem Assigns.assignment_mem_candidates (hm : r.Assigns m) (hadmits : r.Admits m)
    (hlarge : r.tooLarge = false) (hlimit : r.candidateLimit = none)
    (hceiling : r.targets.length.descFactorial r.sources.length ≤ candidateCeiling) :
    r.assignment (r.sources.map m.rename) ∈ r.candidates := by
  have hcut : (((arrangements r.sources.length r.targets).map r.assignment).filter
      (r.Admits ·)).length ≤ r.limit := by
    refine Nat.le_trans (List.length_filter_le _ _) ?_
    rw [List.length_map, length_arrangements, limit, hlimit]
    exact hceiling
  rw [candidates_eq hlarge, List.take_of_length_le hcut]
  refine List.mem_filter.mpr ⟨List.mem_map_of_mem ?_,
    decide_eq_true (hm.admits_assignment_map hadmits)⟩
  refine (mem_arrangements_iff r.nodup_targets).mpr ⟨List.length_map _, ?_, ?_⟩
  · exact List.Nodup.map_on hm.injective r.nodup_sources
  · intro t ht
    obtain ⟨B, hB, rfl⟩ := List.mem_map.mp ht
    exact hm.target_mem B hB

/-! ### What a search finds -/

/-- The renamed first grammar enumerates the language of the second, both from the second start
symbol and under the bounds of the search. -/
def Matches (r : RenamingSearch) (m : Renaming) : Prop :=
  ((m.apply r.first).enumerate r.bounds r.stepLimit r.secondStart).language =
    (r.second.enumerate r.bounds r.stepLimit r.secondStart).language

/-- The renaming is one that the search may find: an assignment that the filter lets pass and that
makes the languages the same. -/
structure Solves (r : RenamingSearch) (m : Renaming) : Prop where
  isAssignment : r.IsAssignment m
  admits : r.Admits m
  isMatch : r.Matches m

theorem accepts_iff : r.accepts m = true ↔ r.Matches m := beq_iff_eq

theorem solves_of_find? (h : r.find? = some m) : r.Solves m := by
  obtain ⟨hm, haccepts⟩ := mem_candidates_of_find? h
  exact ⟨isAssignment_of_mem_candidates hm, admits_of_mem_candidates hm, accepts_iff.mp haccepts⟩

theorem sound_of_find? (h : r.find? = some m) : r.IsAssignment m ∧ r.Matches m :=
  ⟨(solves_of_find? h).isAssignment, (solves_of_find? h).isMatch⟩

theorem find?_of_tooLarge (h : r.tooLarge = true) : r.find? = none := by
  rw [find?_eq]
  unfold candidates
  rw [if_pos h]
  rfl

/-- If there is a search at all, there are no more assignments than are looked at without limit. -/
def WithinCeiling (r : RenamingSearch) : Prop :=
  r.tooLarge = false → r.targets.length.descFactorial r.sources.length ≤ candidateCeiling

instance (r : RenamingSearch) : Decidable r.WithinCeiling :=
  inferInstanceAs (Decidable (_ → _))

theorem Assigns.apply_assignment_map (hm : r.Assigns m) (g : Grammar) :
    (r.assignment (r.sources.map m.rename)).apply g = m.apply g :=
  Renaming.apply_congr fun A _ => rename_assignment_map hm A

theorem Solves.accepts_assignment_map (hm : r.Solves m) :
    r.accepts (r.assignment (r.sources.map m.rename)) = true := by
  rw [accepts_iff]
  unfold Matches
  rw [hm.isAssignment.assigns.apply_assignment_map]
  exact hm.isMatch

theorem Solves.isSome_find? (hm : r.Solves m) (hlarge : r.tooLarge = false)
    (hlimit : r.candidateLimit = none)
    (hceiling : r.targets.length.descFactorial r.sources.length ≤ candidateCeiling) :
    r.find?.isSome := by
  rw [find?_eq, List.find?_isSome]
  exact ⟨_, hm.isAssignment.assigns.assignment_mem_candidates hm.admits hlarge hlimit hceiling,
    hm.accepts_assignment_map⟩

theorem Solves.find?_of_targets (hm : r.Solves m) (hlarge : r.tooLarge = false)
    (hlimit : r.candidateLimit = none) {us : List NonTerminal}
    (htargets : r.targets = r.sources.map m.rename ++ us) :
    r.find? = some (r.assignment (r.sources.map m.rename)) := by
  have hlead := head?_arrangements (r.sources.map m.rename) us
  rw [List.length_map, ← htargets] at hlead
  obtain ⟨tss, htss⟩ := List.head?_eq_some_iff.mp hlead
  have hadmits := decide_eq_true (hm.isAssignment.assigns.admits_assignment_map hm.admits)
  have hceiling : 0 < candidateCeiling := by decide
  rw [find?_eq, candidates_eq hlarge, htss, List.map_cons,
    List.filter_cons_of_pos (p := (r.Admits ·)) hadmits, limit, hlimit, Option.getD_none,
    List.take_cons hceiling, List.find?_cons_of_pos hm.accepts_assignment_map]

/-- **A search without limit is exhaustive**: it finds a renaming just if the first grammar has not
too many heads and there is a solution. -/
theorem isSome_find?_iff (hlimit : r.candidateLimit = none) (hceiling : r.WithinCeiling) :
    r.find?.isSome ↔ r.tooLarge = false ∧ ∃ m, r.Solves m := by
  constructor
  · intro hfound
    obtain ⟨m, hfind⟩ := Option.isSome_iff_exists.mp hfound
    refine ⟨Bool.eq_false_iff.mpr fun hlarge => ?_, m, solves_of_find? hfind⟩
    rw [find?_of_tooLarge hlarge] at hfind
    simp at hfind
  · rintro ⟨hlarge, m, hm⟩
    exact hm.isSome_find? hlarge hlimit (hceiling hlarge)

theorem find?_eq_none_iff (hfilter : r.filterShapes = false) (hlimit : r.candidateLimit = none)
    (hceiling : r.targets.length.descFactorial r.sources.length ≤ candidateCeiling) :
    r.find? = none ↔
      maxSearchHeads < r.first.heads.length ∨ ¬ ∃ m, r.IsAssignment m ∧ r.Matches m := by
  have hsolves : ∀ m, r.Solves m ↔ r.IsAssignment m ∧ r.Matches m := fun m =>
    ⟨fun h => ⟨h.isAssignment, h.isMatch⟩, fun h => ⟨h.1, fun _ _ => by simp [admits, hfilter], h.2⟩⟩
  have hlarge : r.tooLarge = false ↔ ¬ maxSearchHeads < r.first.heads.length := by
    rw [tooLarge, decide_eq_false_iff_not]
  rw [← Option.not_isSome_iff_eq_none, isSome_find?_iff hlimit fun _ => hceiling,
    hlarge, not_and_or, not_not]
  simp only [hsolves]

/-! ### What a search reports -/

/-- How a search may end, and what it reports then. -/
inductive Ending (r : RenamingSearch) : Option Renaming → Event → Prop
  /-- It found the first candidate that matches, and reports its place, counted from one. -/
  | matched (m : Renaming) (i : Nat) (hm : r.candidates[i]? = some m) (hmatch : r.Matches m)
      (hbefore : ∀ j < i, ∀ n, r.candidates[j]? = some n → ¬ r.Matches n) :
      Ending r (some m) (.matched m (i + 1))
  /-- No candidate matches, and it reports how many there are. -/
  | unmatched (hnone : ∀ m ∈ r.candidates, ¬ r.Matches m) :
      Ending r none (.unmatched r.candidates.length)

theorem attempts_foldUntil (r : RenamingSearch) (l : Language) (as : List Attempt)
    (ms : List Renaming) :
    (stepValue (foldUntil (r.tryCandidate l) (as, none) ms)).1 =
      ((ms.take (ms.findIdx (fun m => (r.enumerateUnder m).language == l) + 1)).map
        fun m => ⟨m, r.enumerateUnder m⟩).reverse ++ as := by
  induction ms generalizing as with
  | nil => rfl
  | cons m ms ih =>
      rw [foldUntil, tryCandidate, List.findIdx_cons]
      by_cases h : (r.enumerateUnder m).language = l
      · simp [h, stepValue]
      · simp [h, ih, beq_eq_false_iff_ne.mpr h]

theorem attempts_run (r : RenamingSearch) :
    r.run.attempts =
      (r.candidates.take (r.candidates.findIdx r.accepts + 1)).map
        fun m => ⟨m, r.enumerateUnder m⟩ := by
  unfold run
  dsimp only
  rw [foldCandidates_eq, attempts_foldUntil, List.append_nil, List.reverse_reverse]
  rfl

theorem tried_run (r : RenamingSearch) :
    r.run.tried = min (r.candidates.findIdx r.accepts + 1) r.candidates.length := by
  unfold SearchOutcome.tried
  rw [attempts_run, List.length_map, List.length_take]

/-- **What a search reports** at its end. -/
theorem ending_run (r : RenamingSearch) : r.Ending r.find? r.run.conclusion := by
  have hfound : r.run.found = r.find? := rfl
  unfold SearchOutcome.conclusion
  rw [hfound, tried_run]
  cases hfind : r.find? with
  | none =>
      rw [find?_eq, List.find?_eq_none] at hfind
      have hindex : r.candidates.findIdx r.accepts = r.candidates.length :=
        List.findIdx_eq_length.mpr fun m hm => Bool.eq_false_iff.mpr (hfind m hm)
      rw [hindex, Nat.min_eq_right (Nat.le_succ _)]
      exact .unmatched fun m hm hmatch => hfind m hm (accepts_iff.mpr hmatch)
  | some m =>
      rw [find?_eq, List.find?_eq_some_iff_getElem] at hfind
      obtain ⟨haccepts, i, hi, rfl, hbefore⟩ := hfind
      have hindex : r.candidates.findIdx r.accepts = i :=
        (List.findIdx_eq hi).mpr ⟨haccepts, fun j hj => by simpa using hbefore j hj⟩
      rw [hindex, Nat.min_eq_left hi]
      refine .matched _ i (List.getElem?_eq_getElem hi) (accepts_iff.mp haccepts) ?_
      intro j hj n hn hmatch
      obtain ⟨hj', rfl⟩ := List.getElem?_eq_some_iff.mp hn
      have hrejects := hbefore j hj
      rw [accepts_iff.mpr hmatch] at hrejects
      simp at hrejects

theorem getLast?_events (o : SearchOutcome) : o.events.getLast? = some o.conclusion := by
  unfold SearchOutcome.events
  exact List.getLast?_concat

/-- **The search is sound and exhaustive**, and in all settings it reports the place of the first candidate
that matches, or how many there are. -/
theorem find?_sound_and_exhaustive (r : RenamingSearch) :
    (∀ m, r.find? = some m → r.IsAssignment m ∧ r.Matches m) ∧
    (r.filterShapes = false → r.candidateLimit = none →
      r.targets.length.descFactorial r.sources.length ≤ candidateCeiling →
      (r.find? = none ↔
        maxSearchHeads < r.first.heads.length ∨ ¬ ∃ m, r.IsAssignment m ∧ r.Matches m)) ∧
    ∃ e, r.run.events.getLast? = some e ∧ r.Ending r.find? e :=
  ⟨fun _ => sound_of_find?, find?_eq_none_iff, _, getLast?_events _, r.ending_run⟩

/-- `S -> aA`, `A -> Y` and `B -> b` against `T -> aX`, `Y -> b` and `X -> Y`: of the two assignments
the second, which sends `B` to the undefined `Y`, leads to `ab`. -/
theorem find?_second_assignment :
    let S : NonTerminal := ⟨'S'⟩
    let A : NonTerminal := ⟨'A'⟩
    let B : NonTerminal := ⟨'B'⟩
    let T : NonTerminal := ⟨'T'⟩
    let X : NonTerminal := ⟨'X'⟩
    let Y : NonTerminal := ⟨'Y'⟩
    let first := Grammar.ofProductions [(S, [.terminal 'a', .nonTerminal A]), (A, [.nonTerminal Y]),
      (B, [.terminal 'b'])]
    let second := Grammar.ofProductions [(T, [.terminal 'a', .nonTerminal X]),
      (Y, [.terminal 'b']), (X, [.nonTerminal Y])]
    let r : RenamingSearch := ⟨first, S, second, T, ⟨3, some 2⟩, false, none, none⟩
    let m := Renaming.ofPairs [(S, T), (A, X), (B, Y)]
    (r.filterShapes = false ∧ r.candidateLimit = none ∧
      r.targets.length.descFactorial r.sources.length ≤ candidateCeiling) ∧
    r.find? = some m ∧ (r.IsAssignment m ∧ r.Matches m) ∧
    (r.find? = none ↔
      maxSearchHeads < r.first.heads.length ∨ ¬ ∃ m, r.IsAssignment m ∧ r.Matches m) ∧
    ∃ e, r.run.events.getLast? = some e ∧ r.Ending (some m) e := by
  intro S A B T X Y first second r m
  have hfind : r.find? = some m := by decide +kernel
  have hceiling : r.targets.length.descFactorial r.sources.length ≤ candidateCeiling := by decide
  obtain ⟨hsound, hexhaustive, hending⟩ := find?_sound_and_exhaustive r
  exact ⟨⟨rfl, rfl, hceiling⟩, hfind, hsound m hfind, hexhaustive rfl rfl hceiling, hfind ▸ hending⟩

end RenamingSearch
end GrammarComparison
