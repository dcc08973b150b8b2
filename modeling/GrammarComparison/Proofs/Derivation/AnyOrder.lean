import GrammarComparison.Proofs.Enumeration.BreadthFirst
import GrammarComparison.Proofs.Grammar.NoEmptyProduction

/-! # Derivations in any order

A step of `Rewrites` may replace any non-terminal of a form, not only the leftmost one.  The steps
of such a derivation can be put into leftmost order without changing their number, as long as its
last form has no non-terminals: the leftmost non-terminal of the first form is replaced at some
point, and this step may as well come first (`Rewrites.leftmost_first`).

The length bound limits the forms on the way.  Without empty productions no step makes a form
shorter, so that the last form alone decides whether a derivation keeps within the bound
(`LeftStep.length_le`).  Together the two make the enumeration independent of the policy of its
search (`Grammar.generates_iff_rewrites`). -/

namespace GrammarComparison

variable {g : Grammar} {b : Bounds} {n : Nat} {w x y : Word}

/-! ### Steps anywhere -/

/-- Replacing some non-terminal of `w` by one of its productions gives `x`. -/
def Step (g : Grammar) (w x : Word) : Prop :=
  ∃ (u : Word) (A : NonTerminal) (v p : Word),
    w = u ++ .nonTerminal A :: v ∧ g.Produces A p ∧ x = u ++ p ++ v

/-- `Rewrites g n w x`: `n` steps, in whatever order, lead from `w` to `x`. -/
inductive Rewrites (g : Grammar) : Nat → Word → Word → Prop
  | refl (w : Word) : Rewrites g 0 w w
  | head {n : Nat} {w x y : Word} (hstep : Step g w x) (hy : Rewrites g n x y) :
      Rewrites g (n + 1) w y

theorem LeftStep.step (h : LeftStep g w x) : Step g w x := by
  obtain ⟨u, A, v, p, hw, _, hp, hx⟩ := h
  exact ⟨u, A, v, p, hw, hp, hx⟩

theorem Rewrites.tail (h : Rewrites g n w x) (hstep : Step g x y) : Rewrites g (n + 1) w y := by
  induction h with
  | refl w => exact .head hstep (.refl y)
  | head hfirst _ ih => exact .head hfirst (ih hstep)

theorem Derives.rewrites (h : Derives g b n w x) : Rewrites g n w x := by
  induction h with
  | refl _ => exact .refl _
  | tail _ hstep _ ih => exact ih.tail hstep.step

/-! ### The leftmost step first -/

theorem Word.not_isTerminal_append_cons (u v : Word) (A : NonTerminal) :
    ¬ isTerminal (u ++ .nonTerminal A :: v) := by
  simp [isTerminal, Symbol.nonTerminal?]

theorem Word.exists_leftmost (h : ¬ isTerminal w) :
    ∃ u A v, w = u ++ .nonTerminal A :: v ∧ isTerminal u := by
  cases hsplit : splitLeftmost w with
  | none => exact absurd (splitLeftmost_eq_none_iff.mp hsplit) h
  | some p => exact ⟨p.1, p.2.1, p.2.2, splitLeftmost_eq_some hsplit⟩

theorem Word.leftmost_or_behind {u v u' v' : Word} {A B : NonTerminal} (hu : isTerminal u)
    (h : u ++ Symbol.nonTerminal A :: v = u' ++ .nonTerminal B :: v') :
    (u' = u ∧ B = A ∧ v' = v) ∨
      ∃ z, u' = u ++ .nonTerminal A :: z ∧ v = z ++ .nonTerminal B :: v' := by
  rcases List.append_eq_append_iff.mp h with ⟨z, rfl, hz⟩ | ⟨z, rfl, hz⟩
  · cases z with
    | nil =>
        simp only [List.nil_append, List.cons.injEq, Symbol.nonTerminal.injEq] at hz
        exact .inl ⟨by simp, hz.1.symm, hz.2.symm⟩
    | cons s z =>
        simp only [List.cons_append, List.cons.injEq] at hz
        obtain ⟨rfl, hv⟩ := hz
        exact .inr ⟨z, rfl, hv⟩
  · cases z with
    | nil =>
        simp only [List.nil_append, List.cons.injEq, Symbol.nonTerminal.injEq] at hz
        exact .inl ⟨by simp, hz.1, hz.2⟩
    | cons s z =>
        -- `B` would stand within `u`, which has no non-terminals
        simp only [List.cons_append, List.cons.injEq] at hz
        obtain ⟨rfl, _⟩ := hz
        exact absurd hu (Word.not_isTerminal_append_cons u' z B)

/-- **The leftmost step may come first**: a derivation of a form without non-terminals can begin
with the leftmost non-terminal of its first form, with as many steps in all. -/
theorem Rewrites.leftmost_first {u v : Word} {A : NonTerminal} (hu : u.isTerminal)
    (hx : x.isTerminal) (h : Rewrites g (n + 1) (u ++ .nonTerminal A :: v) x) :
    ∃ p, g.Produces A p ∧ Rewrites g n (u ++ p ++ v) x := by
  induction n generalizing v with
  | zero =>
      cases h with
      | head hstep hrest =>
          obtain ⟨u', B, v', p, hw, hp, rfl⟩ := hstep
          cases hrest
          rcases Word.leftmost_or_behind hu hw with ⟨rfl, rfl, rfl⟩ | ⟨z, rfl, rfl⟩
          · exact ⟨p, hp, .refl _⟩
          · rw [List.append_assoc, List.append_assoc, List.cons_append] at hx
            exact absurd hx (Word.not_isTerminal_append_cons u _ A)
  | succ n ih =>
      cases h with
      | head hstep hrest =>
          obtain ⟨u', B, v', p, hw, hp, rfl⟩ := hstep
          rcases Word.leftmost_or_behind hu hw with ⟨rfl, rfl, rfl⟩ | ⟨z, rfl, rfl⟩
          · exact ⟨p, hp, hrest⟩
          · -- the first step is made behind `A`: it is put off until `A` is replaced
            rw [List.append_assoc, List.append_assoc, List.cons_append] at hrest
            obtain ⟨q, hq, hrest'⟩ := ih hrest
            refine ⟨q, hq, .head ⟨u ++ q ++ z, B, v', p, ?_, hp, rfl⟩ ?_⟩
            · simp
            · simpa using hrest'

/-! ### Leftmost order -/

theorem Bounds.fits_some (d L : Nat) (w : Word) :
    Bounds.Fits ⟨d, some L⟩ w ↔ w.length ≤ L := by
  simp [Bounds.Fits]

theorem Derives.head (hstep : LeftStep g w x) (hfits : b.Fits w)
    (h : Derives g b n x y) : Derives g b (n + 1) w y := by
  induction h with
  | refl hx => exact .tail (.refl hfits) hstep hx
  | tail _ hlast hy ih => exact .tail (ih hstep) hlast hy

theorem Derives.first_fits (h : Derives g b n w x) : b.Fits w := by
  induction h with
  | refl hw => exact hw
  | tail _ _ _ ih => exact ih

/-- **Leftmost order suffices**: if the length bound is kept by whatever precedes a form that keeps
it, then a derivation of a form without non-terminals can be put into leftmost order. -/
theorem Rewrites.derives
    (hback : ∀ w x, LeftStep g w x → b.Fits x → b.Fits w)
    (hx : x.isTerminal) (hfits : b.Fits x) (h : Rewrites g n w x) :
    Derives g b n w x := by
  induction n generalizing w with
  | zero =>
      cases h
      exact .refl hfits
  | succ n ih =>
      have hw : ¬ w.isTerminal := by
        cases h with
        | head hstep _ =>
            obtain ⟨u, A, v, _, rfl, _⟩ := hstep
            exact Word.not_isTerminal_append_cons u v A
      obtain ⟨u, A, v, rfl, hu⟩ := Word.exists_leftmost hw
      obtain ⟨p, hp, hrest⟩ := h.leftmost_first hu hx
      have hstep : LeftStep g (u ++ .nonTerminal A :: v) (u ++ p ++ v) :=
        ⟨u, A, v, p, rfl, hu, hp, rfl⟩
      have hderives := ih hrest
      exact hderives.head hstep (hback _ _ hstep hderives.first_fits)

theorem Grammar.generates_iff_rewrites
    (hback : ∀ w x, LeftStep g w x → b.Fits x → b.Fits w)
    (A : NonTerminal) (v : List Char) :
    g.Generates b A v ↔ ∃ n w, n ≤ b.maxDepth ∧ Rewrites g n [.nonTerminal A] w ∧ w.isTerminal ∧
      b.Fits w ∧ w.spelling = v := by
  constructor
  · rintro ⟨n, w, hn, hw, hterm, hspell⟩
    exact ⟨n, w, hn, hw.rewrites, hterm, hw.fits, hspell⟩
  · rintro ⟨n, w, hn, hw, hterm, hfits, hspell⟩
    exact ⟨n, w, hn, hw.derives hback hterm hfits, hterm, hspell⟩

/-- **The order of steps does not matter**: without length bound for any grammar, and within one for those
without empty productions. -/
theorem mem_enumerate_iff_rewrites (g : Grammar) (A : NonTerminal) (d : Nat) :
    (∀ v, v ∈ (g.enumerate ⟨d, none⟩ none A).language ↔
      ∃ n w, n ≤ d ∧ Rewrites g n [.nonTerminal A] w ∧ w.isTerminal ∧ w.spelling = v) ∧
    (g.NoEmptyProduction → ∀ L v, v ∈ (g.enumerate ⟨d, some L⟩ none A).language ↔
      ∃ n w, n ≤ d ∧ Rewrites g n [.nonTerminal A] w ∧ w.isTerminal ∧ w.length ≤ L ∧
        w.spelling = v) ∧
    (∀ text, (Grammar.parse text).NoEmptyProduction) ∧
    (g.NoEmptyProduction → ∀ m : Renaming, (m.apply g).NoEmptyProduction) := by
  refine ⟨?_, ?_, Grammar.noEmptyProduction_parse, Renaming.noEmptyProduction_apply⟩
  · intro v
    have hfits : ∀ w, Bounds.Fits ⟨d, none⟩ w := fun _ => nofun
    rw [mem_language_iff_generates, Grammar.generates_iff_rewrites (fun w _ _ _ => hfits w)]
    simp only [hfits, true_and]
  · intro hg L v
    have hback : ∀ w x, LeftStep g w x → Bounds.Fits ⟨d, some L⟩ x →
        Bounds.Fits ⟨d, some L⟩ w := by
      intro w x hstep hx
      rw [Bounds.fits_some] at hx ⊢
      exact Nat.le_trans (hstep.length_le hg) hx
    rw [mem_language_iff_generates, Grammar.generates_iff_rewrites hback]
    simp only [Bounds.fits_some]

/-- With the rules `S -> AB`, `A -> a` and `B -> b` the order that begins with `B` leads to `ab`,
which the search in leftmost order finds within two symbols, also after renaming `A`. -/
theorem enumerate_rightmost_first :
    let S : NonTerminal := ⟨'S'⟩
    let A : NonTerminal := ⟨'A'⟩
    let B : NonTerminal := ⟨'B'⟩
    let g := Grammar.ofProductions
      [(S, [.nonTerminal A, .nonTerminal B]), (A, [.terminal 'a']), (B, [.terminal 'b'])]
    g.NoEmptyProduction ∧ ['a', 'b'] ∈ (g.enumerate ⟨3, some 2⟩ none S).language ∧
      ((Renaming.ofPairs [(A, ⟨'C'⟩)]).apply g).NoEmptyProduction := by
  intro S A B g
  have hg : g.NoEmptyProduction := by decide
  have h₃ : Rewrites g 3 [.nonTerminal S] [.terminal 'a', .terminal 'b'] :=
    .head ⟨[], S, [], [.nonTerminal A, .nonTerminal B], rfl, by decide, rfl⟩
      (.head ⟨[.nonTerminal A], B, [], [.terminal 'b'], rfl, by decide, rfl⟩
        (.head ⟨[], A, [.terminal 'b'], [.terminal 'a'], rfl, by decide, rfl⟩ (.refl _)))
  obtain ⟨_, hbounded, _, hrenamed⟩ := mem_enumerate_iff_rewrites g S 3
  exact ⟨hg, (hbounded hg 2 ['a', 'b']).mpr ⟨3, _, by decide, h₃, rfl, by decide, rfl⟩,
    hrenamed hg _⟩

end GrammarComparison
