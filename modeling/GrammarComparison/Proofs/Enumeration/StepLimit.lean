import GrammarComparison.Proofs.Enumeration.Round

/-! # The step limit

A step limit ends a search before its queue is empty and changes nothing else: a search with limit
goes through the same rounds as one with a laxer limit or none, and continuing where it stopped
gives the longer search (`run_run`).  What it has collected is never given up (`found_run`).

Every state that was queued is still queued or was counted as a step (`steps_add_queued`).  A search
that comes to its limit `n` therefore leaves all but `n` of the queued states behind, and it does so
just if the search without limit takes more than `n` states off its queue
(`queue_run_eq_nil_iff`).  As a queue that is left behind is reported, the reports tell whether an
enumeration is complete (`enumerate_step_limit`). -/

namespace GrammarComparison

namespace Search

variable {g : Grammar} {b : Bounds} {A : NonTerminal} {limit limit' : Option Nat} {n : Nat}
  {s t : Search}

/-! ### Laxer limits -/

/-- The limit `limit'` forbids no round that `limit` allows. -/
def Laxer (limit limit' : Option Nat) : Prop :=
  ∀ k, limit'.any (· ≤ k) = true → limit.any (· ≤ k) = true

theorem laxer_none (limit : Option Nat) : Laxer limit none := fun _ h => absurd h (by simp)

theorem laxer_some {n n' : Nat} (h : n ≤ n') : Laxer (some n) (some n') := by
  intro k hk
  simp only [Option.any_some, decide_eq_true_eq] at hk ⊢
  omega

theorem step?_of_laxer (hlax : Laxer limit limit') (h : s.step? g b limit = some t) :
    s.step? g b limit' = some t := by
  unfold step? at h ⊢
  split at h
  · simp at h
  · split at h
    · simp at h
    · rename_i hallowed
      rw [if_neg fun hforbidden => hallowed (hlax _ hforbidden)]
      exact h

/-- **A search can be continued**: where it stopped, a laxer limit leads on to what the search with
that limit comes to from the beginning. -/
theorem run_run (hlax : Laxer limit limit') (s : Search) :
    (s.run g b limit).run g b limit' = s.run g b limit' := by
  induction s using run.induct g b limit with
  | case1 s h => rw [run_of_step?_none h]
  | case2 s t h _ ih =>
      rw [run_of_step?_some h, ih]
      exact (run_of_step?_some (step?_of_laxer hlax h)).symm

/-! ### What grows in the course of a search -/

theorem found_run (s : Search) : ∀ u ∈ s.found, u ∈ (s.run g b limit).found := by
  refine run_induction (P := fun t => ∀ u ∈ s.found, u ∈ t.found) ?_ s fun _ hu => hu
  intro t t' hstep ht u hu
  cases (round_of_step? hstep).1 with
  | skip _ _ _ _ _ _ hfound => exact hfound ▸ ht u hu
  | visit _ _ _ _ _ _ hfound => exact hfound ▸ List.mem_append_right _ (ht u hu)

theorem steps_le_run (s : Search) : s.steps ≤ (s.run g b limit).steps := by
  refine run_induction (P := fun t => s.steps ≤ t.steps) ?_ s (Nat.le_refl _)
  intro t t' hstep ht
  rw [(round_of_step? hstep).2]
  omega

theorem steps_run_le (g : Grammar) (b : Bounds) (A : NonTerminal) (n : Nat) :
    ((start A).run g b (some n)).steps ≤ n := by
  refine run_induction (P := fun t => t.steps ≤ n) ?_ _ (Nat.zero_le n)
  intro s t hstep _
  have hallowed : ¬ (some n).any (· ≤ s.steps) = true := fun hforbidden => by
    rw [step?_eq_none_iff.mpr (.inr hforbidden)] at hstep
    simp at hstep
  simp only [Option.any_some, decide_eq_true_eq] at hallowed
  rw [(round_of_step? hstep).2]
  omega

/-! ### States queued and taken -/

/-- The number of states queued so far: the start symbol, and what the visits queued. -/
def enqueued (g : Grammar) (b : Bounds) (s : Search) : Nat :=
  1 + (s.visited.states.flatMap (expansion g b)).length

theorem enqueued_round (h : Round g b s t) :
    enqueued g b t + s.queue.toList.length = enqueued g b s + (t.queue.toList.length + 1) := by
  unfold enqueued
  cases h with
  | skip x rest hqueue _ hqueue' hvisited _ =>
      rw [hqueue, hqueue', hvisited, List.length_cons]
  | visit x rest hqueue _ hqueue' hvisited _ =>
      rw [hqueue, hqueue', hvisited, List.length_cons, List.length_append, List.flatMap_cons,
        List.length_append]
      omega

/-- **No state is lost**: what was queued is still queued or was taken off. -/
theorem steps_add_queued (g : Grammar) (b : Bounds) (limit : Option Nat) (A : NonTerminal) :
    let s := (start A).run g b limit
    s.steps + s.queue.toList.length = enqueued g b s := by
  refine run_induction (P := fun s => s.steps + s.queue.toList.length = enqueued g b s) ?_ _ ?_
  · intro s t hstep hs
    obtain ⟨hround, hsteps⟩ := round_of_step? hstep
    have := enqueued_round hround
    omega
  · simp [start, enqueued, Visited.empty]

/-! ### Where a search with limit ends -/

theorem steps_run_of_queue_ne_nil (h : ((start A).run g b (some n)).queue.toList ≠ []) :
    ((start A).run g b (some n)).steps = n := by
  have hend : ((start A).run g b (some n)).step? g b (some n) = none := step?_run _
  rcases step?_eq_none_iff.mp hend with hempty | hlimit
  · exact absurd hempty h
  · simp only [Option.any_some, decide_eq_true_eq] at hlimit
    exact Nat.le_antisymm (steps_run_le g b A n) hlimit

theorem run_eq_of_queue_eq_nil (h : (s.run g b limit).queue.toList = []) :
    s.run g b limit = s.run g b none := by
  rw [← run_run (laxer_none limit) s, run_of_step?_none (step?_eq_none_iff.mpr (.inl h))]

theorem queue_run_eq_nil_iff :
    ((start A).run g b (some n)).queue.toList = [] ↔ ((start A).run g b none).steps ≤ n := by
  constructor
  · intro hempty
    rw [← run_eq_of_queue_eq_nil hempty]
    exact steps_run_le g b A n
  · intro hsteps
    cases hstep : ((start A).run g b (some n)).step? g b none with
    | none => simpa [step?_eq_none_iff] using hstep
    | some t =>
        refine Decidable.byContradiction fun hqueue => ?_
        have hmore : t.steps ≤ (t.run g b none).steps := steps_le_run t
        rw [← run_of_step?_some hstep, run_run (laxer_none _), (round_of_step? hstep).2,
          steps_run_of_queue_ne_nil hqueue] at hmore
        omega

end Search

/-! ### Enumerations with limit -/

variable {g : Grammar} {b : Bounds} {A : NonTerminal} {limit limit' : Option Nat} {n : Nat}

/-- The warnings among the events of an enumeration. -/
def Enumeration.warnings (e : Enumeration) : List Event := e.events.filter (·.level = .warn)

theorem Enumeration.warnings_eq (e : Enumeration) :
    e.warnings = if e.isCut then [.stopped e.start e.steps e.queued] else [] := by
  unfold warnings events
  cases e.isCut <;> rfl

theorem Grammar.isCut_enumerate_iff :
    (g.enumerate b limit A).isCut = true ↔ ((Search.start A).run g b limit).queue.toList ≠ [] := by
  simp [enumerate, Enumeration.ofSearch, Enumeration.isCut]

theorem Grammar.enumerate_of_not_isCut (h : (g.enumerate b limit A).isCut = false) :
    g.enumerate b limit A = g.enumerate b none A := by
  have hqueue : ((Search.start A).run g b limit).queue.toList = [] :=
    Decidable.byContradiction fun hne => by simp [isCut_enumerate_iff.mpr hne] at h
  unfold enumerate
  rw [Search.run_eq_of_queue_eq_nil hqueue]

theorem Grammar.isCut_enumerate_eq :
    (g.enumerate b (some n) A).isCut = decide (n < (g.enumerate b none A).steps) := by
  rw [Bool.eq_iff_iff, isCut_enumerate_iff, Ne, Search.queue_run_eq_nil_iff, decide_eq_true_iff,
    Nat.not_le]
  rfl

theorem Grammar.language_subset_of_laxer (hlax : Search.Laxer limit limit') :
    (g.enumerate b limit A).language ⊆ (g.enumerate b limit' A).language := by
  rw [Language.subset_iff]
  intro u hu
  unfold enumerate Enumeration.ofSearch at hu ⊢
  rw [Language.mem_ofList] at hu ⊢
  rw [← Search.run_run hlax]
  exact Search.found_run _ u hu

theorem Grammar.warnings_enumerate_of_lt (hn : n < (g.enumerate b none A).steps) :
    let queued := ((Search.start A).run g b (some n)).enqueued g b - n
    1 ≤ queued ∧ (g.enumerate b (some n) A).warnings = [.stopped A n queued] := by
  have hcut : (g.enumerate b (some n) A).isCut = true := by
    rw [isCut_enumerate_eq]
    exact decide_eq_true hn
  have hqueue := isCut_enumerate_iff.mp hcut
  have hpos := List.length_pos_iff.mpr hqueue
  have hsteps : (g.enumerate b (some n) A).steps = n := Search.steps_run_of_queue_ne_nil hqueue
  have hsize : (g.enumerate b (some n) A).queued =
      ((Search.start A).run g b (some n)).queue.toList.length := Queue.size_eq _
  have hbalance : (g.enumerate b (some n) A).steps +
      ((Search.start A).run g b (some n)).queue.toList.length =
        ((Search.start A).run g b (some n)).enqueued g b := Search.steps_add_queued g b (some n) A
  have hqueued : (g.enumerate b (some n) A).queued =
      ((Search.start A).run g b (some n)).enqueued g b - n := by omega
  refine ⟨by omega, ?_⟩
  rw [Enumeration.warnings_eq, hcut, if_pos rfl, hqueued, hsteps]
  rfl

theorem Grammar.enumerate_of_warnings_eq_nil (h : (g.enumerate b limit A).warnings = []) :
    g.enumerate b limit A = g.enumerate b none A := by
  refine enumerate_of_not_isCut (Bool.eq_false_iff.mpr fun hcut => ?_)
  rw [Enumeration.warnings_eq, hcut] at h
  simp at h

/-- **The step limit truncates and says so.**  `N` is the number of states that are taken off the queue
without limit. -/
theorem enumerate_step_limit (g : Grammar) (b : Bounds) (A : NonTerminal) :
    let full := g.enumerate b none A
    (∀ n, full.steps ≤ n →
      g.enumerate b (some n) A = full ∧ (g.enumerate b (some n) A).warnings = []) ∧
    (∀ n, n < full.steps →
      let queued := ((Search.start A).run g b (some n)).enqueued g b - n
      1 ≤ queued ∧ (g.enumerate b (some n) A).warnings = [.stopped A n queued]) ∧
    (∀ n n', n ≤ n' →
      (g.enumerate b (some n) A).language ⊆ (g.enumerate b (some n') A).language ∧
      (g.enumerate b (some n') A).language ⊆ full.language) ∧
    ∀ limit, (g.enumerate b limit A).warnings = [] → g.enumerate b limit A = full := by
  refine ⟨?_, fun n => Grammar.warnings_enumerate_of_lt, ?_,
    fun limit => Grammar.enumerate_of_warnings_eq_nil⟩
  · intro n hn
    have hcut : (g.enumerate b (some n) A).isCut = false := by
      rw [Grammar.isCut_enumerate_eq]
      exact decide_eq_false (Nat.not_lt.mpr hn)
    refine ⟨Grammar.enumerate_of_not_isCut hcut, ?_⟩
    rw [Enumeration.warnings_eq, hcut]
    rfl
  · intro n n' hn
    exact ⟨Grammar.language_subset_of_laxer (Search.laxer_some hn),
      Grammar.language_subset_of_laxer (Search.laxer_none _)⟩

/-- Three steps with `S -> aS | bS | *` take 22 states off the queue.  A limit of 22 is as good as
none; a limit of four leaves six of the ten states that were queued by then. -/
theorem enumerate_cut_after_four :
    let S : NonTerminal := ⟨'S'⟩
    let g := Grammar.ofProductions [(S, [.terminal 'a', .nonTerminal S]),
      (S, [.terminal 'b', .nonTerminal S]), (S, [.marker])]
    let b : Bounds := ⟨3, some 20⟩
    (g.enumerate b none S).steps = 22 ∧
      g.enumerate b (some 22) S = g.enumerate b none S ∧
      (g.enumerate b (some 4) S).warnings = [.stopped S 4 6] ∧
      (g.enumerate b (some 4) S).language ⊆ (g.enumerate b (some 21) S).language ∧
      ((g.enumerate b (some 22) S).warnings = [] ∧
        g.enumerate b (some 22) S = g.enumerate b none S) := by
  intro S g b
  have hsteps : (g.enumerate b none S).steps = 22 := by decide +kernel
  have henqueued : ((Search.start S).run g b (some 4)).enqueued g b = 10 := by decide +kernel
  obtain ⟨hlax, hcut, hsubset, hcomplete⟩ := enumerate_step_limit g b S
  obtain ⟨hsame, hsilent⟩ := hlax 22 (Nat.le_of_eq hsteps)
  obtain ⟨_, hwarning⟩ := hcut 4 (by omega)
  rw [henqueued] at hwarning
  exact ⟨hsteps, hsame, hwarning, (hsubset 4 21 (by decide)).1, hsilent, hcomplete _ hsilent⟩

end GrammarComparison
