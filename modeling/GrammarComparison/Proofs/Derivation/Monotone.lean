import GrammarComparison.Proofs.Enumeration.BreadthFirst
import GrammarComparison.Proofs.Grammar.Table

/-! # More rules and laxer bounds

What a grammar generates is generated as well by every grammar with more rules, and under bounds that
allow more steps and longer forms: a derivation does not mind what else there is, so it stands as it is
(`Derives.mono`).  The searches that enumerate the two languages may meet the forms in different orders
and at different depths; as both are exact, no string is lost on the way (`enumerate_mono`). -/

namespace GrammarComparison

/-- Whatever the bounds `b` allow, the bounds `c` allow as well.  No length bound allows the most. -/
structure Bounds.Within (b c : Bounds) : Prop where
  maxDepth_le : b.maxDepth ≤ c.maxDepth
  maxLen_le : ∀ L, c.maxLen = some L → ∃ K ≤ L, b.maxLen = some K

/-- Each rule of `g` is a rule of `h`, in whatever place. -/
def Grammar.RulesWithin (g h : Grammar) : Prop := ∀ A w, g.Produces A w → h.Produces A w

instance (g h : Grammar) : Decidable (g.RulesWithin h) :=
  decidable_of_iff (∀ p ∈ g.productions, h.Produces p.1 p.2)
    (Grammar.forall_produces_iff (P := fun A w => h.Produces A w)).symm

variable {g h : Grammar} {b c : Bounds} {n : Nat} {A : NonTerminal} {w x : Word} {v : List Char}

theorem Bounds.Within.refl (b : Bounds) : b.Within b :=
  ⟨Nat.le_refl _, fun L hL => ⟨L, Nat.le_refl _, hL⟩⟩

theorem Bounds.Within.fits (hbc : b.Within c) (hw : b.Fits w) :
    c.Fits w := by
  intro L hL
  obtain ⟨K, hKL, hK⟩ := hbc.maxLen_le L hL
  exact Nat.le_trans (hw K hK) hKL

theorem LeftStep.mono (hgh : g.RulesWithin h) (hstep : LeftStep g w x) : LeftStep h w x := by
  obtain ⟨u, A, v, p, hw, hu, hp, hx⟩ := hstep
  exact ⟨u, A, v, p, hw, hu, hgh A p hp, hx⟩

theorem Derives.mono (hgh : g.RulesWithin h)
    (hfits : ∀ w, b.Fits w → c.Fits w) (hd : Derives g b n w x) :
    Derives h c n w x :=
  hd.map id (fun _ _ => LeftStep.mono hgh) hfits

theorem Grammar.Generates.mono (hgh : g.RulesWithin h) (hbc : b.Within c) (hv : g.Generates b A v) :
    h.Generates c A v := by
  obtain ⟨n, w, hn, hw, hterm, hspell⟩ := hv
  exact ⟨n, w, Nat.le_trans hn hbc.maxDepth_le, hw.mono hgh fun _ => hbc.fits, hterm, hspell⟩

/-- **The enumeration is monotone.**  Without step limit, more rules, more steps and longer forms only
add strings, in whatever order the rules stand. -/
theorem enumerate_mono (hgh : g.RulesWithin h) (hbc : b.Within c) (A : NonTerminal) :
    (g.enumerate b none A).language ⊆ (h.enumerate c none A).language := by
  intro v hv
  rw [mem_language_iff_generates] at hv ⊢
  exact hv.mono hgh hbc

/-- The rules `S -> aS | *` stand in another order and among others in `S -> SS | * | aS`, where the
cyclic rule leads the search to `a` over other forms; one more step and no length bound lose nothing
either. -/
theorem enumerate_among_more_rules :
    let S : NonTerminal := ⟨'S'⟩
    let g := Grammar.ofProductions [(S, [.terminal 'a', .nonTerminal S]), (S, [.marker])]
    let h := Grammar.ofProductions [(S, [.nonTerminal S, .nonTerminal S]), (S, [.marker]),
      (S, [.terminal 'a', .nonTerminal S])]
    let b : Bounds := ⟨2, some 2⟩
    let c : Bounds := ⟨3, none⟩
    g.RulesWithin h ∧ b.Within c ∧ ['a'] ∈ (g.enumerate b none S).language ∧
      (g.enumerate b none S).language ⊆ (h.enumerate c none S).language := by
  intro S g h b c
  have hgh : g.RulesWithin h := by decide
  have hbc : b.Within c := ⟨by decide, fun L hL => by simp [c] at hL⟩
  have hfound : ['a'] ∈ (g.enumerate b none S).language := Language.mem_ofList.mpr (by decide +kernel)
  exact ⟨hgh, hbc, hfound, enumerate_mono hgh hbc S⟩

end GrammarComparison
