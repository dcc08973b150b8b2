import Mathlib.Algebra.Order.Ring.GeomSum
import Mathlib.Data.List.Nodup
import GrammarComparison.Proofs.Enumeration.BreadthFirst
import GrammarComparison.Proofs.Enumeration.StepLimit

/-! # How a search ends

A search without step limit ends for every grammar, whether it is recursive, cyclic or erasing, and
whether or not there is a length bound: each state weighs more than all that follow it.  The weight
of the start symbol also bounds the number of rounds by the number of nodes of a tree that branches
as often as the largest head has productions and is as deep as the depth bound
(`steps_add_load_run_le`).

At the end the visited forms are those that the depth bound and the length bound let the grammar
derive (`mem_forms_run_iff`), none of them visited twice (`nodup_forms_run`).  So no form is expanded
twice, and the rounds are accounted for: one for the start symbol, and one for each production of the
leftmost non-terminal of each expanded form (`steps_run`).  `search_ends` puts these together. -/

namespace GrammarComparison

/-- In how many ways a leftmost step can go on from the form: the number of productions of its
leftmost non-terminal. -/
def Grammar.choices (g : Grammar) (w : Word) : Nat :=
  match w.leftmost? with
  | none => 0
  | some (_, A) => (g.alternatives A).length

/-- Leftmost steps within the bounds lead from `A` to the form `w`. -/
def Grammar.Reaches (g : Grammar) (b : Bounds) (A : NonTerminal) (w : Word) : Prop :=
  ∃ n ≤ b.maxDepth, Derives g b n [.nonTerminal A] w

theorem Grammar.length_successors (g : Grammar) (w : Word) :
    (g.successors w).length = g.choices w := by
  unfold successors choices Word.leftmost?
  cases w.splitLeftmost with
  | none => rfl
  | some p => exact List.length_map _

namespace Search

variable {g : Grammar} {b : Bounds} {limit : Option Nat} {A : NonTerminal} {n : Nat} {s t : Search}
  {w : Word}

/-! ### The forms visited -/

theorem Rounds.nodup_forms (h : Rounds g b limit n (start A) s) : s.forms.Nodup := by
  refine h.keeps (P := fun s => s.forms.Nodup) ?_ List.nodup_nil
  intro s t hstep hs
  cases (round_of_step? hstep).1 with
  | skip x rest _ _ _ hvisited _ =>
      unfold forms
      rw [hvisited]
      exact hs
  | visit x rest _ hkeep _ hvisited _ =>
      unfold forms
      rw [hvisited]
      exact List.nodup_cons.mpr ⟨fun hmet => hkeep (.inr hmet), hs⟩

theorem nodup_forms_run (g : Grammar) (b : Bounds) (limit : Option Nat) (A : NonTerminal) :
    ((start A).run g b limit).forms.Nodup := by
  obtain ⟨_, h⟩ := rounds_run g b limit (start A)
  exact h.nodup_forms

theorem mem_forms_run_iff : w ∈ ((start A).run g b none).forms ↔ g.Reaches b A w := by
  constructor
  · intro hw
    obtain ⟨x, hx, rfl⟩ := List.mem_map.mp hw
    obtain ⟨hdepth, hderives⟩ := (breadthFirst_run g b none A).derived x hx
    exact ⟨x.depth, hdepth, hderives⟩
  · rintro ⟨n, hn, hw⟩
    obtain ⟨x, hx, rfl, _⟩ := visited_of_derives hw hn
    exact List.mem_map.mpr ⟨x, hx, rfl⟩

/-! ### The forms expanded -/

/-- A visit of the state expands its form: it has a non-terminal and is not at the depth bound. -/
def expands (b : Bounds) (x : State) : Bool := !x.form.isTerminal && x.depth < b.maxDepth

/-- The visited forms that were expanded. -/
def expanded (b : Bounds) (s : Search) : List Word :=
  (s.visited.states.filter (expands b)).map State.form

theorem nodup_expanded_run (g : Grammar) (b : Bounds) (limit : Option Nat) (A : NonTerminal) :
    (((start A).run g b limit).expanded b).Nodup :=
  (nodup_forms_run g b limit A).sublist (List.filter_sublist.map State.form)

theorem mem_expanded_run_iff :
    w ∈ ((start A).run g b none).expanded b ↔
      ¬ w.isTerminal ∧ ∃ n < b.maxDepth, Derives g b n [.nonTerminal A] w := by
  simp only [expanded, expands, List.mem_map, List.mem_filter, Bool.and_eq_true, Bool.not_eq_true',
    decide_eq_true_eq, Bool.not_eq_true]
  constructor
  · rintro ⟨x, ⟨hx, hterm, hdepth⟩, rfl⟩
    exact ⟨hterm, x.depth, hdepth, ((breadthFirst_run g b none A).derived x hx).2⟩
  · rintro ⟨hterm, n, hn, hw⟩
    obtain ⟨x, hx, rfl, hdepth⟩ := visited_of_derives hw (Nat.le_of_lt hn)
    exact ⟨x, ⟨hx, hterm, Nat.lt_of_le_of_lt hdepth hn⟩, rfl⟩

/-! ### The number of rounds -/

theorem length_expansion (g : Grammar) (b : Bounds) (x : State) :
    (expansion g b x).length = if expands b x then g.choices x.form else 0 := by
  by_cases hterm : x.form.isTerminal
  · rw [expansion_of_isTerminal hterm]
    simp [expands, hterm]
  · unfold expansion next
    by_cases hdepth : b.maxDepth ≤ x.depth
    · simp [expands, hdepth, Nat.not_lt.mpr hdepth]
    · simp [expands, hterm, hdepth, Nat.lt_of_not_le hdepth, Grammar.length_successors]

theorem length_flatMap_expansion (g : Grammar) (b : Bounds) (xs : List State) :
    (xs.flatMap (expansion g b)).length =
      (((xs.filter (expands b)).map State.form).map g.choices).sum := by
  induction xs with
  | nil => rfl
  | cons x xs ih =>
      rw [List.flatMap_cons, List.length_append, ih, length_expansion, List.filter_cons]
      split
      · rfl
      · exact Nat.zero_add _

/-- **The rounds are accounted for**: one takes the start symbol off the queue, and each expansion
queues a state for each production that it can use. -/
theorem steps_run (g : Grammar) (b : Bounds) (A : NonTerminal) :
    let s := (start A).run g b none
    s.steps = 1 + ((s.expanded b).map g.choices).sum := by
  intro s
  have hbalance : s.steps + s.queue.toList.length = enqueued g b s := steps_add_queued g b none A
  have hempty : s.queue.toList = [] := queue_run_none g b _
  rw [hempty, List.length_nil, Nat.add_zero] at hbalance
  rw [hbalance]
  unfold enqueued expanded
  rw [length_flatMap_expansion]

theorem weight_eq_sum (p n : Nat) : weight p n = ∑ d ∈ Finset.range (n + 1), p ^ d := by
  induction n with
  | zero => simp [weight]
  | succ n ih => rw [weight, ih, geom_sum_succ (n := n + 1)]

/-- What is left in the queue weighs no more than the start symbol less one for each round. -/
theorem steps_add_load_run_le (g : Grammar) (b : Bounds) (limit : Option Nat) (A : NonTerminal) :
    let s := (start A).run g b limit
    s.steps + load g b s.queue.toList ≤ weight (fanout g) b.maxDepth := by
  refine run_induction (P := fun s => s.steps + load g b s.queue.toList ≤ _) ?_ _ ?_
  · intro s t hstep hs
    have hlighter := load_step? hstep
    rw [(round_of_step? hstep).2]
    omega
  · simp [start, load]

/-! ### The course of a search -/

theorem rounds_start (g : Grammar) (b : Bounds) (limit : Option Nat) (A : NonTerminal) :
    let s := (start A).run g b limit
    Rounds g b limit s.steps (start A) s := by
  intro s
  obtain ⟨n, hn⟩ := rounds_run g b limit (start A)
  have hsteps : s.steps = n := hn.steps_eq.trans (Nat.zero_add n)
  rwa [hsteps]

theorem Rounds.le_steps (h : Rounds g b limit n (start A) t) :
    n ≤ ((start A).run g b limit).steps := by
  have hmore : t.steps ≤ (t.run g b limit).steps := steps_le_run t
  rw [h.run_eq, h.steps_eq] at hmore
  exact Nat.le_trans (Nat.le_add_left n _) hmore

theorem Rounds.depth_le (h : Rounds g b limit n (start A) t) :
    ∀ x, x ∈ t.queue.toList ∨ x ∈ t.visited.states → x.depth ≤ b.maxDepth := by
  rintro x (hx | hx)
  · exact (h.breadthFirst.offered x hx).1
  · exact (h.breadthFirst.derived x hx).1

end Search

/-- **A search ends, and expands no form twice.**  Its rounds are accounted for, and bounded by the size of
a tree as deep as the depth bound. -/
theorem search_ends (g : Grammar) (b : Bounds) (A : NonTerminal) :
    let s := (Search.start A).run g b none
    (Search.Rounds g b none s.steps (.start A) s ∧ s.queue.toList = []) ∧
    (s.forms.Nodup ∧ ∀ w, w ∈ s.forms ↔ ∃ n ≤ b.maxDepth, Derives g b n [.nonTerminal A] w) ∧
    (s.steps = 1 + ((s.expanded b).map g.choices).sum ∧ (s.expanded b).Nodup ∧
      ∀ w, w ∈ s.expanded b ↔
        ¬ w.isTerminal ∧ ∃ n < b.maxDepth, Derives g b n [.nonTerminal A] w) ∧
    s.steps ≤ ∑ d ∈ Finset.range (b.maxDepth + 1), Search.fanout g ^ d ∧
    ∀ n t, Search.Rounds g b none n (.start A) t →
      n ≤ s.steps ∧ ∀ x, x ∈ t.queue.toList ∨ x ∈ t.visited.states → x.depth ≤ b.maxDepth := by
  intro s
  have hload := Search.steps_add_load_run_le g b none A
  rw [Search.weight_eq_sum] at hload
  refine ⟨⟨Search.rounds_start g b none A, Search.queue_run_none g b _⟩,
    ⟨Search.nodup_forms_run g b none A, fun _ => Search.mem_forms_run_iff⟩,
    ⟨Search.steps_run g b A, Search.nodup_expanded_run g b none A,
      fun _ => Search.mem_expanded_run_iff⟩,
    Nat.le_trans (Nat.le_add_right _ _) hload, ?_⟩
  exact fun n t h => ⟨h.le_steps, h.depth_le⟩

/-- Two steps with the left-recursive, cyclic and erasing rules `S -> Sa | S` and `S` to the empty
word, without length bound: `S` and `Sa` are expanded, which makes seven rounds out of thirteen. -/
theorem search_ends_left_recursive :
    let S : NonTerminal := ⟨'S'⟩
    let g := Grammar.ofProductions
      [(S, [.nonTerminal S, .terminal 'a']), (S, [.nonTerminal S]), (S, [])]
    let b : Bounds := ⟨2, none⟩
    let s := (Search.start S).run g b none
    Search.Rounds g b none 7 (.start S) s ∧
      s.expanded b = [[.nonTerminal S, .terminal 'a'], [.nonTerminal S]] ∧
      7 = 1 + ((s.expanded b).map g.choices).sum ∧
      7 ≤ ∑ d ∈ Finset.range 3, Search.fanout g ^ d ∧
      ∀ x, x ∈ s.queue.toList ∨ x ∈ s.visited.states → x.depth ≤ 2 := by
  intro S g b s
  have hsteps : s.steps = 7 := by decide +kernel
  have hexpanded : s.expanded b = [[.nonTerminal S, .terminal 'a'], [.nonTerminal S]] := by
    decide +kernel
  obtain ⟨⟨hrounds, _⟩, _, ⟨hsum, _⟩, hbound, hcourse⟩ := search_ends g b S
  have hdepth := (hcourse _ _ hrounds).2
  exact ⟨hsteps ▸ hrounds, hexpanded, hsteps ▸ hsum, hsteps ▸ hbound, hdepth⟩

end GrammarComparison
