import GrammarComparison.Enumeration

/-! # Rounds of the search

What one round of the search does, said through the list of the queued states and the list of the
visited ones, so that nothing later looks into queues and indexes.  A round takes the first state
off the queue.  It drops the state, or it visits it and queues its `expansion` (`Round`,
`round_of_step?`); it fails only if the queue is empty or the step limit reached
(`step?_eq_none_iff`).

A search ends after a number of rounds (`rounds_run`), where no round is left (`step?_run`);
`run_induction` carries what every round keeps to this end. -/

namespace GrammarComparison.Search

variable {g : Grammar} {b : Bounds} {limit : Option Nat} {s t : Search}

/-! ### What a visit adds -/

/-- The forms met so far, the latest first. -/
def forms (s : Search) : List Word := s.visited.states.map State.form

/-- The states that a visit of `x` queues: its successors, or none at the depth bound. -/
def expansion (g : Grammar) (b : Bounds) (x : State) : List State :=
  if b.maxDepth ≤ x.depth then [] else next g x

/-- The strings that a visit of `x` collects: the spelling of a form without non-terminals. -/
def harvest (x : State) : List (List Char) := if x.form.isTerminal then [x.form.spelling] else []

theorem next_of_isTerminal {x : State} (h : x.form.isTerminal) : next g x = [] := by
  unfold next Grammar.successors
  rw [Word.splitLeftmost_eq_none_iff.mpr h]
  rfl

theorem expansion_of_isTerminal {x : State} (h : x.form.isTerminal) : expansion g b x = [] := by
  unfold expansion
  rw [next_of_isTerminal h, ite_self]

theorem mem_expansion {x y : State} :
    y ∈ expansion g b x ↔
      x.depth < b.maxDepth ∧ y.form ∈ g.successors x.form ∧ y.depth = x.depth + 1 := by
  obtain ⟨w, d⟩ := y
  unfold expansion next
  split
  · rename_i h
    simp [Nat.not_lt.mpr h]
  · rename_i h
    simp only [List.mem_map, State.mk.injEq, Nat.lt_of_not_le h, true_and]
    constructor
    · rintro ⟨v, hv, rfl, rfl⟩
      exact ⟨hv, rfl⟩
    · rintro ⟨hw, hd⟩
      exact ⟨w, hw, rfl, hd.symm⟩

/-! ### Rounds -/

/-- The search drops a state whose form is too long or was met before. -/
def Drops (b : Bounds) (s : Search) (x : State) : Prop :=
  ¬ b.Fits x.form ∨ x.form ∈ s.forms

theorem fits_of_not_drops {x : State} (h : ¬ s.Drops b x) : b.Fits x.form :=
  Decidable.not_not.mp fun hlong => h (.inl hlong)

/-- A round that leads from `s` to `t`. -/
inductive Round (g : Grammar) (b : Bounds) (s t : Search) : Prop
  /-- The first state of the queue is dropped. -/
  | skip (x : State) (rest : List State) (hqueue : s.queue.toList = x :: rest)
      (hdrop : s.Drops b x) (hqueue' : t.queue.toList = rest)
      (hvisited : t.visited.states = s.visited.states) (hfound : t.found = s.found)
  /-- The first state of the queue is visited. -/
  | visit (x : State) (rest : List State) (hqueue : s.queue.toList = x :: rest)
      (hkeep : ¬ s.Drops b x) (hqueue' : t.queue.toList = rest ++ expansion g b x)
      (hvisited : t.visited.states = x :: s.visited.states)
      (hfound : t.found = harvest x ++ s.found)

theorem round_take {x : State} {rest : Queue State} (h : s.queue.toList = x :: rest.toList) :
    Round g b s (s.take g b x rest) := by
  have hdrops : (b.exceededBy x.form || s.visited.contains x.form) = true ↔ s.Drops b x := by
    rw [Bool.or_eq_true, Bounds.exceededBy_eq_true_iff, Visited.contains_iff]
    rfl
  unfold take
  split
  · rename_i hdrop
    exact .skip x rest.toList h (hdrops.mp hdrop) rfl rfl rfl
  · rename_i hkeep
    rw [hdrops] at hkeep
    split
    · rename_i hterm
      refine .visit x rest.toList h hkeep ?_ rfl ?_
      · rw [expansion_of_isTerminal hterm, List.append_nil]
      · simp [harvest, hterm]
    · rename_i hterm
      split
      · rename_i hdepth
        refine .visit x rest.toList h hkeep ?_ rfl ?_
        · simp [expansion, hdepth]
        · simp [harvest, hterm]
      · rename_i hdepth
        refine .visit x rest.toList h hkeep ?_ rfl ?_
        · simp [expansion, hdepth]
        · simp [harvest, hterm]

theorem steps_take (s : Search) (x : State) (rest : Queue State) :
    (s.take g b x rest).steps = s.steps + 1 := by
  unfold take
  split
  · rfl
  · split
    · rfl
    · split <;> rfl

theorem step?_eq_none_iff :
    s.step? g b limit = none ↔ s.queue.toList = [] ∨ limit.any (· ≤ s.steps) = true := by
  unfold step?
  cases hpop : s.queue.pop? with
  | none => simp [Queue.pop?_eq_none_iff.mp hpop]
  | some p =>
      obtain ⟨x, rest⟩ := p
      rw [Queue.toList_of_pop? hpop]
      cases limit.any (· ≤ s.steps) <;> simp

/-- **What a round does**: it drops or visits the first state of the queue and counts it. -/
theorem round_of_step? (h : s.step? g b limit = some t) :
    Round g b s t ∧ t.steps = s.steps + 1 := by
  unfold step? at h
  split at h
  · simp at h
  · rename_i x rest hpop
    split at h
    · simp at h
    · obtain rfl := Option.some.inj h
      exact ⟨round_take (Queue.toList_of_pop? hpop), steps_take s x rest⟩

/-! ### Runs -/

theorem run_of_step?_none (h : s.step? g b limit = none) : s.run g b limit = s := by
  rw [run]
  split
  · rfl
  · rename_i t ht
    rw [h] at ht
    simp at ht

theorem run_of_step?_some (h : s.step? g b limit = some t) : s.run g b limit = t.run g b limit := by
  rw [run]
  split
  · rename_i ht
    rw [h] at ht
    simp at ht
  · rename_i t' ht
    rw [h] at ht
    obtain rfl := Option.some.inj ht
    rfl

/-- `Rounds g b limit n s t`: `n` rounds lead from `s` to `t`. -/
inductive Rounds (g : Grammar) (b : Bounds) (limit : Option Nat) : Nat → Search → Search → Prop
  | refl (s : Search) : Rounds g b limit 0 s s
  | head {n : Nat} {s t u : Search} (hstep : s.step? g b limit = some t)
      (hu : Rounds g b limit n t u) : Rounds g b limit (n + 1) s u

namespace Rounds

variable {n : Nat}

theorem keeps {P : Search → Prop} (hround : ∀ s t, s.step? g b limit = some t → P s → P t)
    (h : Rounds g b limit n s t) (hs : P s) : P t := by
  induction h with
  | refl s => exact hs
  | head hstep _ ih => exact ih (hround _ _ hstep hs)

theorem steps_eq (h : Rounds g b limit n s t) : t.steps = s.steps + n := by
  induction h with
  | refl s => rfl
  | head hstep _ ih =>
      rw [ih, (round_of_step? hstep).2]
      omega

/-- The end of a search is the end of what any number of rounds leave of it. -/
theorem run_eq (h : Rounds g b limit n s t) : t.run g b limit = s.run g b limit := by
  induction h with
  | refl s => rfl
  | head hstep _ ih => rw [ih, run_of_step?_some hstep]

end Rounds

theorem rounds_run (g : Grammar) (b : Bounds) (limit : Option Nat) (s : Search) :
    ∃ n, Rounds g b limit n s (s.run g b limit) := by
  induction s using run.induct g b limit with
  | case1 s h =>
      rw [run_of_step?_none h]
      exact ⟨0, .refl s⟩
  | case2 s t h _ ih =>
      obtain ⟨n, hn⟩ := ih
      rw [run_of_step?_some h]
      exact ⟨n + 1, .head h hn⟩

/-- What every round keeps holds at the end of a search. -/
theorem run_induction {P : Search → Prop}
    (hround : ∀ s t, s.step? g b limit = some t → P s → P t) (s : Search) (hs : P s) :
    P (s.run g b limit) := by
  obtain ⟨n, hn⟩ := rounds_run g b limit s
  exact hn.keeps hround hs

theorem step?_run (s : Search) : (s.run g b limit).step? g b limit = none := by
  induction s using run.induct g b limit with
  | case1 s h => rwa [run_of_step?_none h]
  | case2 s t h _ ih => rwa [run_of_step?_some h]

end GrammarComparison.Search
