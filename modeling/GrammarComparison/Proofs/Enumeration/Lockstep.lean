import GrammarComparison.Proofs.Enumeration.Round

/-! # Searches in lockstep

Let `f` carry the forms of one grammar to forms of another, without merging any two of them, so that
the successors of `f w` are those of `w` carried over, in the same order (`Lockstep`).  Then the
searches of the two grammars take their rounds side by side: the second drops, visits and collects
whatever the first does, carried over (`InStep`, `Lockstep.inStep_round`).  They end alike, also
where a step limit ends them, so that both enumerations have the same language and the same figures
(`Lockstep.enumerate_eq`). -/

namespace GrammarComparison

/-- On the forms that satisfy `P`, the map `f` carries the steps of `g` to those of `h`. -/
structure Lockstep (g h : Grammar) (P : Word → Prop) (f : Word → Word) : Prop where
  injective : ∀ w x, P w → P x → f w = f x → w = x
  length_eq : ∀ w, P w → (f w).length = w.length
  isTerminal_eq : ∀ w, P w → (f w).isTerminal = w.isTerminal
  spelling_eq : ∀ w, P w → w.isTerminal → (f w).spelling = w.spelling
  closed : ∀ w, P w → ∀ x ∈ g.successors w, P x
  successors_eq : ∀ w, P w → h.successors (f w) = (g.successors w).map f

/-- The state with its form carried over. -/
def State.carry (f : Word → Word) (x : State) : State := ⟨f x.form, x.depth⟩

namespace Search

/-- The search `t` is where `s` is, with all forms carried over. -/
structure InStep (P : Word → Prop) (f : Word → Word) (s t : Search) : Prop where
  queue_eq : t.queue.toList = s.queue.toList.map (State.carry f)
  visited_eq : t.visited.states = s.visited.states.map (State.carry f)
  found_eq : t.found = s.found
  steps_eq : t.steps = s.steps
  queue_mem : ∀ x ∈ s.queue.toList, P x.form
  visited_mem : ∀ x ∈ s.visited.states, P x.form

theorem InStep.forms_eq {P : Word → Prop} {f : Word → Word} {s t : Search} (h : InStep P f s t) :
    t.forms = s.forms.map f := by
  unfold forms
  rw [h.visited_eq, List.map_map, List.map_map]
  rfl

end Search

namespace Lockstep

open Search (InStep Round expansion harvest)

variable {g h : Grammar} {P : Word → Prop} {f : Word → Word} {b : Bounds} {limit : Option Nat}
  {s t s' t' : Search}

/-! ### A visit carried over -/

theorem fits_iff (hf : Lockstep g h P f) {w : Word} (hw : P w) : b.Fits (f w) ↔ b.Fits w := by
  unfold Bounds.Fits
  rw [hf.length_eq w hw]

theorem mem_forms_iff (hf : Lockstep g h P f) (hst : InStep P f s t) {w : Word} (hw : P w) :
    f w ∈ t.forms ↔ w ∈ s.forms := by
  rw [hst.forms_eq, List.mem_map]
  constructor
  · rintro ⟨x, hx, hfx⟩
    obtain ⟨v, hv, rfl⟩ := List.mem_map.mp hx
    rwa [← hf.injective _ _ (hst.visited_mem v hv) hw hfx]
  · intro hx
    exact ⟨w, hx, rfl⟩

theorem drops_iff (hf : Lockstep g h P f) (hst : InStep P f s t) {x : State} (hx : P x.form) :
    t.Drops b (x.carry f) ↔ s.Drops b x := by
  unfold Search.Drops State.carry
  rw [hf.fits_iff hx, hf.mem_forms_iff hst hx]

theorem expansion_carry (hf : Lockstep g h P f) {x : State} (hx : P x.form) :
    expansion h b (x.carry f) = (expansion g b x).map (State.carry f) := by
  unfold expansion Search.next State.carry
  dsimp only
  rw [hf.successors_eq _ hx]
  split
  · rfl
  · rw [List.map_map, List.map_map]
    rfl

theorem expansion_mem (hf : Lockstep g h P f) {x y : State} (hx : P x.form)
    (hy : y ∈ expansion g b x) : P y.form :=
  hf.closed _ hx _ (Search.mem_expansion.mp hy).2.1

theorem harvest_carry (hf : Lockstep g h P f) {x : State} (hx : P x.form) :
    harvest (x.carry f) = harvest x := by
  unfold harvest State.carry
  dsimp only
  rw [hf.isTerminal_eq _ hx]
  split
  · rename_i hterm
    rw [hf.spelling_eq _ hx hterm]
  · rfl

/-! ### Rounds side by side -/

/-- Rounds of two searches in step keep them in step. -/
theorem inStep_round (hf : Lockstep g h P f) (hst : InStep P f s t) (hs : Round g b s s')
    (ht : Round h b t t') (hsteps : t'.steps = s'.steps) : InStep P f s' t' := by
  have hqueue := hst.queue_eq
  cases hs with
  | skip x rest hsq hdrop hsq' hsv hsf =>
      rw [hsq, List.map_cons] at hqueue
      have hmem : ∀ y ∈ x :: rest, P y.form := fun y hy => hst.queue_mem y (hsq ▸ hy)
      have hx := hmem x List.mem_cons_self
      cases ht with
      | skip y rest' htq _ htq' htv htf =>
          obtain ⟨rfl, rfl⟩ := List.cons.inj (hqueue.symm.trans htq)
          refine ⟨?_, ?_, ?_, hsteps, ?_, ?_⟩
          · rw [htq', hsq']
          · rw [htv, hsv, hst.visited_eq]
          · rw [htf, hsf, hst.found_eq]
          · rw [hsq']
            exact fun y hy => hmem y (List.mem_cons_of_mem _ hy)
          · rw [hsv]
            exact hst.visited_mem
      | visit y rest' htq hkeep _ _ _ =>
          obtain ⟨rfl, _⟩ := List.cons.inj (hqueue.symm.trans htq)
          exact absurd ((hf.drops_iff hst hx).mpr hdrop) hkeep
  | visit x rest hsq hkeep hsq' hsv hsf =>
      rw [hsq, List.map_cons] at hqueue
      have hmem : ∀ y ∈ x :: rest, P y.form := fun y hy => hst.queue_mem y (hsq ▸ hy)
      have hx := hmem x List.mem_cons_self
      cases ht with
      | skip y rest' htq hdrop _ _ _ =>
          obtain ⟨rfl, _⟩ := List.cons.inj (hqueue.symm.trans htq)
          exact absurd ((hf.drops_iff hst hx).mp hdrop) hkeep
      | visit y rest' htq _ htq' htv htf =>
          obtain ⟨rfl, rfl⟩ := List.cons.inj (hqueue.symm.trans htq)
          refine ⟨?_, ?_, ?_, hsteps, ?_, ?_⟩
          · rw [htq', hsq', hf.expansion_carry hx, List.map_append]
          · rw [htv, hsv, hst.visited_eq, List.map_cons]
          · rw [htf, hsf, hst.found_eq, hf.harvest_carry hx]
          · rw [hsq']
            intro y hy
            rcases List.mem_append.mp hy with hy | hy
            · exact hmem y (List.mem_cons_of_mem _ hy)
            · exact hf.expansion_mem hx hy
          · rw [hsv]
            intro v hv
            rcases List.mem_cons.mp hv with rfl | hv
            · exact hx
            · exact hst.visited_mem v hv

theorem step?_eq_none_iff (hst : InStep P f s t) :
    t.step? h b limit = none ↔ s.step? g b limit = none := by
  rw [Search.step?_eq_none_iff, Search.step?_eq_none_iff, hst.queue_eq, hst.steps_eq,
    List.map_eq_nil_iff]

theorem inStep_run (hf : Lockstep g h P f) (s t : Search) (hst : InStep P f s t) :
    InStep P f (s.run g b limit) (t.run h b limit) := by
  induction s using Search.run.induct g b limit generalizing t with
  | case1 s hs =>
      rw [Search.run_of_step?_none hs, Search.run_of_step?_none ((step?_eq_none_iff hst).mpr hs)]
      exact hst
  | case2 s s' hs _ ih =>
      cases ht : t.step? h b limit with
      | none =>
          rw [(step?_eq_none_iff hst).mp ht] at hs
          simp at hs
      | some t' =>
          rw [Search.run_of_step?_some hs, Search.run_of_step?_some ht]
          obtain ⟨hs', hsteps⟩ := Search.round_of_step? hs
          obtain ⟨ht', hsteps'⟩ := Search.round_of_step? ht
          exact ih t' (hf.inStep_round hst hs' ht' (by rw [hsteps', hsteps, hst.steps_eq]))

/-- **Grammars in lockstep enumerate alike**, whatever the bounds and the step limit. -/
theorem enumerate_eq (hf : Lockstep g h P f) {A B : NonTerminal} (hA : P [.nonTerminal A])
    (hB : f [.nonTerminal A] = [.nonTerminal B]) :
    h.enumerate b limit B = { g.enumerate b limit A with start := B } := by
  have hstart : InStep P f (Search.start A) (Search.start B) := by
    refine ⟨?_, rfl, rfl, rfl, ?_, ?_⟩
    · simp [Search.start, State.carry, hB]
    · simpa [Search.start] using hA
    · simp [Search.start, Visited.empty]
  have hrun : InStep P f ((Search.start A).run g b limit) ((Search.start B).run h b limit) :=
    hf.inStep_run _ _ hstart
  unfold Grammar.enumerate Enumeration.ofSearch Visited.size
  dsimp only
  rw [hrun.found_eq, hrun.steps_eq, hrun.visited_eq, Queue.size_eq, Queue.size_eq, hrun.queue_eq,
    List.length_map, List.length_map]

end Lockstep

end GrammarComparison
