import Mathlib.Order.Bounds.Defs
import GrammarComparison.Proofs.Enumeration.Termination

/-! # The course of a search

What holds at each round of a search, and not only at its end.  `Course` keeps the states that were taken
off the queue.  The queue is first in first out, so that the states taken and the states queued are all
that were ever queued, in this order (`Course.queued_eq`); each of them holds a form that is as many
steps from the start symbol as its depth says (`Course.offered`).

The index of visited forms does not remember when a form was first taken, but the visited states do: they
are the first states taken that hold their forms (`Course.find?_of_visited`).  As depths do not fall along
the queue, no derivation of a visited form is shorter than the depth at which it was first taken
(`BreadthFirst.isLeast_depth`).  `breadthFirst_at_each_round` puts this together with the closure of the
visited forms under leftmost steps. -/

namespace GrammarComparison.Search

variable {g : Grammar} {b : Bounds} {A : NonTerminal} {limit : Option Nat} {n : Nat} {s t : Search}
  {xs : List State} {v : State}

/-! ### The states taken -/

/-- Rounds lead from the start symbol `A` to `s`, and the states that they take off the queue are `xs`, in
this order. -/
inductive Course (g : Grammar) (b : Bounds) (limit : Option Nat) (A : NonTerminal) :
    List State → Search → Prop
  | start : Course g b limit A [] (start A)
  | round {xs : List State} {s t : Search} {x : State} {rest : List State}
      (hs : Course g b limit A xs s) (hqueue : s.queue.toList = x :: rest)
      (hstep : s.step? g b limit = some t) : Course g b limit A (xs ++ [x]) t

theorem Round.exists_queue_eq (h : Round g b s t) : ∃ x rest, s.queue.toList = x :: rest := by
  cases h with
  | skip x rest hqueue => exact ⟨x, rest, hqueue⟩
  | visit x rest hqueue => exact ⟨x, rest, hqueue⟩

/-- What a round makes of the state at the front: it is dropped, or it is visited and what comes next is
queued. -/
theorem Round.of_front {x : State} {rest : List State} (h : Round g b s t)
    (hqueue : s.queue.toList = x :: rest) :
    (s.Drops b x ∧ t.queue.toList = rest ∧ t.visited.states = s.visited.states) ∨
      (¬ s.Drops b x ∧ t.queue.toList = rest ++ expansion g b x ∧
        t.visited.states = x :: s.visited.states) := by
  cases h with
  | skip y ys hqueue' hdrop hrest hvisited _ =>
      obtain ⟨rfl, rfl⟩ := List.cons.inj (hqueue.symm.trans hqueue')
      exact .inl ⟨hdrop, hrest, hvisited⟩
  | visit y ys hqueue' hkeep hrest hvisited _ =>
      obtain ⟨rfl, rfl⟩ := List.cons.inj (hqueue.symm.trans hqueue')
      exact .inr ⟨hkeep, hrest, hvisited⟩

namespace Course

theorem append_rounds (h : Course g b limit A xs s) (hn : Rounds g b limit n s t) :
    ∃ ys, ys.length = n ∧ Course g b limit A (xs ++ ys) t := by
  induction hn generalizing xs with
  | refl s => exact ⟨[], rfl, by rwa [List.append_nil]⟩
  | head hstep _ ih =>
      obtain ⟨x, rest, hqueue⟩ := (round_of_step? hstep).1.exists_queue_eq
      obtain ⟨ys, hlength, hcourse⟩ := ih (h.round hqueue hstep)
      refine ⟨x :: ys, congrArg (· + 1) hlength, ?_⟩
      rwa [List.append_assoc] at hcourse

theorem breadthFirst (h : Course g b limit A xs s) : BreadthFirst g b A s := by
  induction h with
  | start => exact breadthFirst_start g b A
  | round _ _ hstep ih => exact ih.round (round_of_step? hstep).1

/-- **The queue is first in, first out**: what was ever queued, the start symbol and what the visits
queued in their order, was taken in this order or is still queued. -/
theorem queued_eq (h : Course g b limit A xs s) : xs ++ s.queue.toList =
    ⟨[.nonTerminal A], 0⟩ :: s.visited.states.reverse.flatMap (expansion g b) := by
  induction h with
  | start => rfl
  | @round xs s t x rest _ hqueue hstep ih =>
      rw [hqueue] at ih
      rcases (round_of_step? hstep).1.of_front hqueue with
        ⟨_, hrest, hvisited⟩ | ⟨_, hrest, hvisited⟩
      · rw [hrest, hvisited, ← ih, List.append_assoc]
        rfl
      · rw [hrest, hvisited, List.reverse_cons, List.flatMap_append, List.flatMap_singleton,
          ← List.cons_append, ← ih]
        simp

theorem offered (h : Course g b limit A xs s) :
    ∀ x ∈ xs ++ s.queue.toList, Offered g b A x.depth x.form := by
  rw [h.queued_eq, List.forall_mem_cons]
  refine ⟨rfl, fun y hy => ?_⟩
  obtain ⟨x, hx, hy⟩ := List.mem_flatMap.mp hy
  have hx := h.breadthFirst.derived x (List.mem_reverse.mp hx)
  exact (BreadthFirst.offered_expansion hx.2 hy).2

theorem mem_forms_of_taken (h : Course g b limit A xs s) :
    ∀ x ∈ xs, b.Fits x.form → x.form ∈ s.forms := by
  induction h with
  | start => simp
  | @round xs s t x rest _ hqueue hstep ih =>
      intro y hy hfits
      unfold forms at ih ⊢
      rcases (round_of_step? hstep).1.of_front hqueue with ⟨hdrop, _, hvisited⟩ | ⟨_, _, hvisited⟩
      · rw [hvisited]
        rcases List.mem_append.mp hy with hy | hy
        · exact ih y hy hfits
        · obtain rfl := List.mem_singleton.mp hy
          exact hdrop.resolve_left (not_not_intro hfits)
      · rw [hvisited, List.map_cons, List.mem_cons]
        rcases List.mem_append.mp hy with hy | hy
        · exact .inr (ih y hy hfits)
        · exact .inl (congrArg State.form (List.mem_singleton.mp hy))

/-- **A visited state is the first one taken** that holds its form. -/
theorem find?_of_visited (h : Course g b limit A xs s) (hv : v ∈ s.visited.states) :
    xs.find? (·.form = v.form) = some v := by
  induction h with
  | start => simp [Search.start, Visited.empty] at hv
  | @round xs s t x rest hs hqueue hstep ih =>
      rw [List.find?_append]
      rcases (round_of_step? hstep).1.of_front hqueue with ⟨_, _, hvisited⟩ | ⟨hkeep, _, hvisited⟩
      · rw [ih (hvisited ▸ hv)]
        rfl
      · rcases List.mem_cons.mp (hvisited ▸ hv) with rfl | hv
        · -- had a state with this form been taken before, the form would be visited by now
          have hnew : xs.find? (·.form = v.form) = none := by
            refine List.find?_eq_none.mpr fun z hz heq => hkeep (.inr ?_)
            have hform : z.form = v.form := of_decide_eq_true heq
            exact hform ▸ hs.mem_forms_of_taken z hz (hform ▸ fits_of_not_drops hkeep)
          rw [hnew]
          simp
        · rw [ih hv]
          rfl

end Course

/-! ### Least depths -/

/-- **No derivation of a visited form is shorter** than the depth at which it was visited. -/
theorem BreadthFirst.isLeast_depth (h : BreadthFirst g b A s) (hforms : s.forms.Nodup)
    (hv : v ∈ s.visited.states) : IsLeast {k | Derives g b k [.nonTerminal A] v.form} v.depth := by
  obtain ⟨hdepth, hderives⟩ := h.derived v hv
  refine ⟨hderives, fun k hk => ?_⟩
  by_cases hbound : k ≤ b.maxDepth
  · rcases h.covers hk hbound with ⟨u, hu, hform, hle⟩ | ⟨x, hx, hle⟩
    · obtain rfl : u = v := List.inj_on_of_nodup_map hforms hu hv hform
      exact hle
    · exact Nat.le_trans (h.behind v hv x hx) hle
  · omega

/-- **The invariant of breadth-first search**, whatever the grammar, the bounds and the step limit. -/
theorem breadthFirst_at_each_round (h : Rounds g b limit n (start A) s) :
    s.queue.toList.Pairwise (fun x y => x.depth ≤ y.depth) ∧
    (∀ x ∈ s.queue.toList, ∀ y ∈ s.queue.toList, y.depth ≤ x.depth + 1) ∧
    ∃ xs, xs.length = n ∧ Course g b limit A xs s ∧
      xs ++ s.queue.toList =
        ⟨[.nonTerminal A], 0⟩ :: s.visited.states.reverse.flatMap (expansion g b) ∧
      (∀ x ∈ xs ++ s.queue.toList, Offered g b A x.depth x.form) ∧
      ∀ w ∈ s.forms, ∃ v, xs.find? (·.form = w) = some v ∧
        IsLeast {k | Derives g b k [.nonTerminal A] w} v.depth ∧
        (v.depth < b.maxDepth → ∀ y, LeftStep g w y →
          y ∈ s.forms ∨ (∃ x ∈ s.queue.toList, x.form = y) ∨ ¬ b.Fits y) := by
  obtain ⟨xs, hlength, hcourse⟩ := Course.start.append_rounds h
  rw [List.nil_append] at hcourse
  have hinvariant := hcourse.breadthFirst
  refine ⟨hinvariant.ordered, hinvariant.spread, xs, hlength, hcourse, hcourse.queued_eq,
    hcourse.offered, ?_⟩
  intro w hw
  obtain ⟨v, hv, rfl⟩ := List.mem_map.mp hw
  refine ⟨v, hcourse.find?_of_visited hv, hinvariant.isLeast_depth h.nodup_forms hv, ?_⟩
  intro hdepth y hy
  by_cases hfits : b.Fits y
  · rcases hinvariant.closed v hv hdepth y (mem_successors_iff.mpr hy) hfits with hqueued | hvisited
    · exact .inr (.inl ⟨_, hqueued, rfl⟩)
    · obtain ⟨u, hu, hform, _⟩ := hvisited
      exact .inl (List.mem_map.mpr ⟨u, hu, hform⟩)
  · exact .inr (.inr hfits)

/-- Three rounds with the left-recursive, cyclic and erasing rules `S -> Sa | S` and `S` to the empty word:
`S` and `Sa` are visited, `S` again is dropped, and the states queued are one or two steps deep.  No
derivation of `Sa` is shorter than one step. -/
theorem breadthFirst_after_three_rounds :
    let S : NonTerminal := ⟨'S'⟩
    let Sa : Word := [.nonTerminal S, .terminal 'a']
    let g := Grammar.ofProductions [(S, Sa), (S, [.nonTerminal S]), (S, [])]
    let b : Bounds := ⟨2, none⟩
    let s := (start S).run g b (some 3)
    Rounds g b (some 3) 3 (start S) s ∧
      s.queue.toList = [⟨[], 1⟩, ⟨[.nonTerminal S, .terminal 'a', .terminal 'a'], 2⟩, ⟨Sa, 2⟩,
        ⟨[.terminal 'a'], 2⟩] ∧
      (∀ x ∈ s.queue.toList, ∀ y ∈ s.queue.toList, y.depth ≤ x.depth + 1) ∧
      Course g b (some 3) S [⟨[.nonTerminal S], 0⟩, ⟨Sa, 1⟩, ⟨[.nonTerminal S], 1⟩] s ∧
      Sa ∈ s.forms ∧ IsLeast {k | Derives g b k [.nonTerminal S] Sa} 1 ∧
      ∀ y, LeftStep g Sa y →
        y ∈ s.forms ∨ (∃ x ∈ s.queue.toList, x.form = y) ∨ ¬ b.Fits y := by
  intro S Sa g b s
  have hsteps : s.steps = 3 := by decide +kernel
  have hqueue : s.queue.toList = [⟨[], 1⟩, ⟨[.nonTerminal S, .terminal 'a', .terminal 'a'], 2⟩,
      ⟨Sa, 2⟩, ⟨[.terminal 'a'], 2⟩] := by decide +kernel
  have hqueued : ⟨[.nonTerminal S], 0⟩ :: s.visited.states.reverse.flatMap (expansion g b) =
      [⟨[.nonTerminal S], 0⟩, ⟨Sa, 1⟩, ⟨[.nonTerminal S], 1⟩] ++ s.queue.toList := by decide +kernel
  have hSa : Sa ∈ s.forms := by decide +kernel
  have hrounds : Rounds g b (some 3) s.steps (start S) s := rounds_start g b (some 3) S
  rw [hsteps] at hrounds
  obtain ⟨_, hspread, xs, _, hcourse, hxs, _, hforms⟩ := breadthFirst_at_each_round hrounds
  obtain rfl := List.append_cancel_right (hxs.trans hqueued)
  obtain ⟨v, hfind, hleast, hnext⟩ := hforms Sa hSa
  have hv : v = ⟨Sa, 1⟩ := by
    rw [← Option.some.injEq, ← hfind]
    decide
  subst hv
  exact ⟨hrounds, hqueue, hspread, hcourse, hSa, hleast, hnext (by decide)⟩

end GrammarComparison.Search
