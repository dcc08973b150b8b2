import GrammarComparison.Proofs.Enumeration.Round

/-! # Breadth-first order

The visited forms of a search carry no depth into the test whether a form is new, and a form is
marked even where the depth bound stops the search.  That no string is lost all the same rests on
the order of the queue: depths never fall from its front to its back, so that the first visit of a
form is a shallowest one.

`BreadthFirst` is the invariant of the rounds, and `BreadthFirst.covers` its use: a form that `n`
steps derive has been visited at depth `n` at the latest, unless the queue still holds a state of
depth `n` at most.  At the end of a search without step limit the queue is empty, and the search
has collected just the strings that the grammar generates within the bounds
(`mem_language_iff_generates`). -/

namespace GrammarComparison

/-- What the search may queue at depth `n`: the start symbol, or a form one step after a form that
is derived within the length bound.  The queued form itself may be too long. -/
def Offered (g : Grammar) (b : Bounds) (A : NonTerminal) : Nat → Word → Prop
  | 0, w => w = [.nonTerminal A]
  | n + 1, w => ∃ x, Derives g b n [.nonTerminal A] x ∧ LeftStep g x w

theorem Offered.derives {g : Grammar} {b : Bounds} {A : NonTerminal} {n : Nat} {w : Word}
    (h : Offered g b A n w) (hfits : b.Fits w) :
    Derives g b n [.nonTerminal A] w := by
  cases n with
  | zero =>
      obtain rfl : w = [.nonTerminal A] := h
      exact .refl hfits
  | succ n =>
      obtain ⟨x, hx, hstep⟩ := h
      exact .tail hx hstep hfits

namespace Search

variable {g : Grammar} {b : Bounds} {A : NonTerminal} {limit : Option Nat} {s t : Search}

/-! ### The invariant -/

/-- The state `x` is queued, or its form was visited no deeper than at `x`. -/
def Covered (s : Search) (x : State) : Prop :=
  x ∈ s.queue.toList ∨ ∃ v ∈ s.visited.states, v.form = x.form ∧ v.depth ≤ x.depth

/-- The invariant of a search from `A`. -/
structure BreadthFirst (g : Grammar) (b : Bounds) (A : NonTerminal) (s : Search) : Prop where
  /-- Depths do not fall from the front of the queue to its back. -/
  ordered : s.queue.toList.Pairwise fun x y => x.depth ≤ y.depth
  /-- The depths in the queue differ by one at most. -/
  spread : ∀ x ∈ s.queue.toList, ∀ y ∈ s.queue.toList, y.depth ≤ x.depth + 1
  /-- What was visited is no deeper than what is queued. -/
  behind : ∀ v ∈ s.visited.states, ∀ x ∈ s.queue.toList, v.depth ≤ x.depth
  offered : ∀ x ∈ s.queue.toList, x.depth ≤ b.maxDepth ∧ Offered g b A x.depth x.form
  derived : ∀ v ∈ s.visited.states,
    v.depth ≤ b.maxDepth ∧ Derives g b v.depth [.nonTerminal A] v.form
  started : b.Fits [.nonTerminal A] → s.Covered ⟨[.nonTerminal A], 0⟩
  /-- Above the depth bound, what follows a visited form is covered unless it is too long. -/
  closed : ∀ v ∈ s.visited.states, v.depth < b.maxDepth → ∀ w ∈ g.successors v.form,
    b.Fits w → s.Covered ⟨w, v.depth + 1⟩
  collected : ∀ u, u ∈ s.found ↔ ∃ v ∈ s.visited.states, v.form.isTerminal ∧ v.form.spelling = u

theorem breadthFirst_start (g : Grammar) (b : Bounds) (A : NonTerminal) :
    BreadthFirst g b A (start A) where
  ordered := by simp [start, Queue.toList_single]
  spread := by simp [start, Queue.toList_single]
  behind := by simp [start, Visited.empty]
  offered := by simp [start, Queue.toList_single, Offered]
  derived := by simp [start, Visited.empty]
  started := fun _ => .inl (by simp [start, Queue.toList_single])
  closed := by simp [start, Visited.empty]
  collected := by simp [start, Visited.empty]

/-! ### A round keeps the invariant -/

namespace BreadthFirst

theorem ordered_cons (h : BreadthFirst g b A s) {x : State} {rest : List State}
    (hqueue : s.queue.toList = x :: rest) :
    (∀ y ∈ rest, x.depth ≤ y.depth) ∧ rest.Pairwise fun y z => y.depth ≤ z.depth := by
  have hordered := h.ordered
  rw [hqueue] at hordered
  exact List.pairwise_cons.mp hordered

theorem le_head_succ (h : BreadthFirst g b A s) {x : State} {rest : List State}
    (hqueue : s.queue.toList = x :: rest) : ∀ y ∈ rest, y.depth ≤ x.depth + 1 := by
  intro y hy
  exact h.spread x (by simp [hqueue]) y (by simp [hqueue, hy])

theorem covered_round (h : BreadthFirst g b A s) (hround : Round g b s t) {y : State}
    (hfits : b.Fits y.form) (hy : s.Covered y) : t.Covered y := by
  cases hround with
  | skip x rest hqueue hdrop hqueue' hvisited _ =>
      unfold Covered
      rw [hqueue', hvisited]
      rcases hy with hy | hy
      · rw [hqueue] at hy
        rcases List.mem_cons.mp hy with rfl | hy
        · rcases hdrop with hlong | hmet
          · exact absurd hfits hlong
          · obtain ⟨v, hv, hform⟩ := List.mem_map.mp hmet
            exact .inr ⟨v, hv, hform, h.behind v hv y (by simp [hqueue])⟩
        · exact .inl hy
      · exact .inr hy
  | visit x rest hqueue _ hqueue' hvisited _ =>
      unfold Covered
      rw [hqueue', hvisited]
      rcases hy with hy | ⟨v, hv, hform, hdepth⟩
      · rw [hqueue] at hy
        rcases List.mem_cons.mp hy with rfl | hy
        · exact .inr ⟨y, by simp, rfl, Nat.le_refl _⟩
        · exact .inl (List.mem_append_left _ hy)
      · exact .inr ⟨v, by simp [hv], hform, hdepth⟩

theorem round_skip (h : BreadthFirst g b A s) (hround : Round g b s t) {x : State}
    {rest : List State} (hqueue : s.queue.toList = x :: rest) (hqueue' : t.queue.toList = rest)
    (hvisited : t.visited.states = s.visited.states) (hfound : t.found = s.found) :
    BreadthFirst g b A t := by
  have hsub : ∀ y ∈ t.queue.toList, y ∈ s.queue.toList := by
    intro y hy
    rw [hqueue, List.mem_cons]
    exact .inr (hqueue' ▸ hy)
  refine ⟨?_, ?_, ?_, ?_, ?_, ?_, ?_, ?_⟩
  · rw [hqueue']
    exact (h.ordered_cons hqueue).2
  · exact fun y hy z hz => h.spread y (hsub y hy) z (hsub z hz)
  · rw [hvisited]
    exact fun v hv y hy => h.behind v hv y (hsub y hy)
  · exact fun y hy => h.offered y (hsub y hy)
  · rw [hvisited]
    exact h.derived
  · exact fun hfits => h.covered_round hround hfits (h.started hfits)
  · rw [hvisited]
    exact fun v hv hdepth w hw hfits =>
      h.covered_round hround hfits (h.closed v hv hdepth w hw hfits)
  · rw [hvisited, hfound]
    exact h.collected

theorem queue_visit (h : BreadthFirst g b A s) {x : State} {rest : List State}
    (hqueue : s.queue.toList = x :: rest) :
    ∀ y ∈ rest ++ expansion g b x, x.depth ≤ y.depth ∧ y.depth ≤ x.depth + 1 := by
  intro y hy
  rcases List.mem_append.mp hy with hy | hy
  · exact ⟨(h.ordered_cons hqueue).1 y hy, h.le_head_succ hqueue y hy⟩
  · obtain ⟨_, _, hdepth⟩ := mem_expansion.mp hy
    omega

theorem ordered_visit (h : BreadthFirst g b A s) {x : State} {rest : List State}
    (hqueue : s.queue.toList = x :: rest) :
    (rest ++ expansion g b x).Pairwise fun y z => y.depth ≤ z.depth := by
  refine List.pairwise_append.mpr ⟨(h.ordered_cons hqueue).2, ?_, ?_⟩
  · refine List.pairwise_of_forall_mem_list ?_
    intro y hy z hz
    obtain ⟨_, _, hdepth⟩ := mem_expansion.mp hy
    obtain ⟨_, _, hdepth'⟩ := mem_expansion.mp hz
    omega
  · intro y hy z hz
    obtain ⟨_, _, hdepth⟩ := mem_expansion.mp hz
    have := h.le_head_succ hqueue y hy
    omega

theorem offered_expansion {x y : State}
    (hx : Derives g b x.depth [.nonTerminal A] x.form) (hy : y ∈ expansion g b x) :
    y.depth ≤ b.maxDepth ∧ Offered g b A y.depth y.form := by
  obtain ⟨hdepth, hform, hnext⟩ := mem_expansion.mp hy
  rw [hnext]
  exact ⟨hdepth, x.form, hx, mem_successors_iff.mp hform⟩

theorem round_visit (h : BreadthFirst g b A s) (hround : Round g b s t) {x : State}
    {rest : List State} (hqueue : s.queue.toList = x :: rest)
    (hfits : b.Fits x.form)
    (hqueue' : t.queue.toList = rest ++ expansion g b x)
    (hvisited : t.visited.states = x :: s.visited.states)
    (hfound : t.found = harvest x ++ s.found) : BreadthFirst g b A t := by
  have hhead : x ∈ s.queue.toList := by simp [hqueue]
  obtain ⟨hdepth, hoffered⟩ := h.offered x hhead
  have hderives := hoffered.derives hfits
  refine ⟨?_, ?_, ?_, ?_, ?_, ?_, ?_, ?_⟩
  · rw [hqueue']
    exact h.ordered_visit hqueue
  · rw [hqueue']
    intro y hy z hz
    have := h.queue_visit hqueue y hy
    have := h.queue_visit hqueue z hz
    omega
  · rw [hqueue', hvisited]
    intro v hv y hy
    have hxy := (h.queue_visit hqueue y hy).1
    rcases List.mem_cons.mp hv with rfl | hv
    · exact hxy
    · exact Nat.le_trans (h.behind v hv x hhead) hxy
  · rw [hqueue']
    intro y hy
    rcases List.mem_append.mp hy with hy | hy
    · exact h.offered y (by simp [hqueue, hy])
    · exact offered_expansion hderives hy
  · rw [hvisited]
    intro v hv
    rcases List.mem_cons.mp hv with rfl | hv
    · exact ⟨hdepth, hderives⟩
    · exact h.derived v hv
  · exact fun hfits' => h.covered_round hround hfits' (h.started hfits')
  · rw [hvisited]
    intro v hv hv' w hw hfits'
    rcases List.mem_cons.mp hv with rfl | hv
    · have hmem : (⟨w, v.depth + 1⟩ : State) ∈ expansion g b v := mem_expansion.mpr ⟨hv', hw, rfl⟩
      exact .inl (hqueue' ▸ List.mem_append_right rest hmem)
    · exact h.covered_round hround hfits' (h.closed v hv hv' w hw hfits')
  · intro u
    rw [hvisited, hfound, List.mem_append, h.collected u]
    simp only [List.mem_cons, exists_eq_or_imp, harvest]
    refine or_congr_left ?_
    split
    · rename_i hterm
      simp [hterm, eq_comm]
    · rename_i hterm
      simp [hterm]

/-- A round keeps the invariant. -/
theorem round (h : BreadthFirst g b A s) (hround : Round g b s t) : BreadthFirst g b A t := by
  have hround' := hround
  cases hround' with
  | skip x rest hqueue _ hqueue' hvisited hfound =>
      exact h.round_skip hround hqueue hqueue' hvisited hfound
  | visit x rest hqueue hkeep hqueue' hvisited hfound =>
      exact h.round_visit hround hqueue (fits_of_not_drops hkeep) hqueue' hvisited hfound

/-! ### What the invariant says -/

/-- A form that `n` steps derive was visited at depth `n` at the latest, or the queue still holds a
state that is no deeper. -/
theorem covers (h : BreadthFirst g b A s) {n : Nat} {w : Word}
    (hw : Derives g b n [.nonTerminal A] w) (hn : n ≤ b.maxDepth) :
    (∃ v ∈ s.visited.states, v.form = w ∧ v.depth ≤ n) ∨ ∃ x ∈ s.queue.toList, x.depth ≤ n := by
  induction hw using Derives.induct_from with
  | refl hfits =>
      rcases h.started hfits with hqueued | hvisited
      · exact .inr ⟨_, hqueued, Nat.le_refl _⟩
      · exact .inl hvisited
  | @tail n x y _ hstep hfits ih =>
      rcases ih (by omega) with ⟨v, hv, rfl, hdepth⟩ | ⟨z, hz, hdepth⟩
      · rcases h.closed v hv (by omega) y (mem_successors_iff.mpr hstep) hfits with hy | hy
        · exact .inr ⟨_, hy, by simpa using hdepth⟩
        · obtain ⟨u, hu, hform, hu'⟩ := hy
          exact .inl ⟨u, hu, hform, Nat.le_trans hu' (by simpa using hdepth)⟩
      · exact .inr ⟨z, hz, by omega⟩

end BreadthFirst

theorem Rounds.breadthFirst {n : Nat} (h : Rounds g b limit n (start A) s) : BreadthFirst g b A s :=
  h.keeps (fun _ _ hstep hs => hs.round (round_of_step? hstep).1) (breadthFirst_start g b A)

theorem breadthFirst_run (g : Grammar) (b : Bounds) (limit : Option Nat) (A : NonTerminal) :
    BreadthFirst g b A ((start A).run g b limit) := by
  obtain ⟨_, h⟩ := rounds_run g b limit (start A)
  exact h.breadthFirst

theorem queue_run_none (g : Grammar) (b : Bounds) (s : Search) :
    (s.run g b none).queue.toList = [] := by
  have hend : (s.run g b none).step? g b none = none := step?_run s
  rcases step?_eq_none_iff.mp hend with h | h
  · exact h
  · simp at h

/-! ### Exactness -/

/-- Without step limit a derived form is visited, at a depth no greater than that of any of its
derivations. -/
theorem visited_of_derives {n : Nat} {w : Word} (hw : Derives g b n [.nonTerminal A] w)
    (hn : n ≤ b.maxDepth) :
    ∃ v ∈ ((start A).run g b none).visited.states, v.form = w ∧ v.depth ≤ n := by
  rcases (breadthFirst_run g b none A).covers hw hn with hv | ⟨x, hx, _⟩
  · exact hv
  · rw [queue_run_none] at hx
    simp at hx

end Search

theorem mem_language_iff_generates (g : Grammar) (b : Bounds) (A : NonTerminal) (v : List Char) :
    v ∈ (g.enumerate b none A).language ↔ g.Generates b A v := by
  have h := Search.breadthFirst_run g b none A
  unfold Grammar.enumerate Enumeration.ofSearch
  rw [Language.mem_ofList, h.collected]
  constructor
  · rintro ⟨x, hx, hterm, hspell⟩
    obtain ⟨hn, hw⟩ := h.derived x hx
    exact ⟨x.depth, x.form, hn, hw, hterm, hspell⟩
  · rintro ⟨n, w, hn, hw, hterm, hspell⟩
    obtain ⟨x, hx, rfl, _⟩ := Search.visited_of_derives hw hn
    exact ⟨x, hx, hterm, hspell⟩

/-- **Exactness of the enumeration**: without step limit just the spellings of derived words are found, and
the test for visited forms hides no form on the way. -/
theorem mem_enumerate_iff_derives (g : Grammar) (b : Bounds) (A : NonTerminal) :
    (∀ v, v ∈ (g.enumerate b none A).language ↔
      ∃ n w, n ≤ b.maxDepth ∧ Derives g b n [.nonTerminal A] w ∧ w.isTerminal ∧ w.spelling = v) ∧
    ∀ n w, n ≤ b.maxDepth → Derives g b n [.nonTerminal A] w →
      ∃ x ∈ ((Search.start A).run g b none).visited.states, x.form = w ∧ x.depth ≤ n :=
  ⟨mem_language_iff_generates g b A, fun _ _ hn hw => Search.visited_of_derives hw hn⟩

/-- The cyclic and erasing rules `S -> SS | a | *`: three steps over `SS` and `*S` find `a` within
two symbols. -/
theorem enumerate_doubling :
    let S : NonTerminal := ⟨'S'⟩
    let g := Grammar.ofProductions
      [(S, [.nonTerminal S, .nonTerminal S]), (S, [.terminal 'a']), (S, [.marker])]
    let b : Bounds := ⟨3, some 2⟩
    ['a'] ∈ (g.enumerate b none S).language ∧
      ∃ x ∈ ((Search.start S).run g b none).visited.states,
        x.form = [.marker, .terminal 'a'] ∧ x.depth ≤ 3 := by
  intro S g b
  have h₁ : Derives g b 1 [.nonTerminal S] [.nonTerminal S, .nonTerminal S] :=
    .tail (.refl (by decide))
      ⟨[], S, [], [.nonTerminal S, .nonTerminal S], rfl, rfl, by decide, rfl⟩ (by decide)
  have h₂ : Derives g b 2 [.nonTerminal S] [.marker, .nonTerminal S] :=
    .tail h₁ ⟨[], S, [.nonTerminal S], [.marker], rfl, rfl, by decide, rfl⟩ (by decide)
  have h₃ : Derives g b 3 [.nonTerminal S] [.marker, .terminal 'a'] :=
    .tail h₂ ⟨[.marker], S, [], [.terminal 'a'], rfl, rfl, by decide, rfl⟩ (by decide)
  exact ⟨((mem_enumerate_iff_derives g b S).1 ['a']).mpr ⟨3, _, by decide, h₃, rfl, rfl⟩,
    (mem_enumerate_iff_derives g b S).2 3 _ (by decide) h₃⟩

end GrammarComparison
