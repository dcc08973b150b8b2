import GrammarComparison.Proofs.Comparison.Certificate
import GrammarComparison.Proofs.Derivation.LengthBound
import GrammarComparison.Proofs.Renaming.Exhaustive

/-! # The two length bounds of a comparison

A comparison bounds the length of forms once for itself and once for its search, so that a renaming
which the search accepts need not hold in the comparison: this is the one verdict that says both
that a renaming was found and that it fails.  It does not arise if the two bounds are the same
(`holds_of_same_bound`), nor if the search goes at least as far as the comparison and no
production erases anything (`holds_of_further_search`).  Then what the search accepts also holds
under the tighter bound of the comparison. -/

namespace GrammarComparison.Config

variable {c : Config} {first second : Grammar} {firstStart secondStart : NonTerminal} {m : Renaming}

/-- With the same bound a renaming that the search accepts holds in the comparison, whatever the step
limit. -/
theorem holds_of_same_bound (hbound : c.searchMaxLen = some c.maxLen)
    (hm : (c.search first firstStart second secondStart).Matches m) :
    c.Holds first second secondStart m := by
  unfold RenamingSearch.Matches search at hm
  rw [hbound] at hm
  exact hm

/-- Without markers and empty productions a renaming that the search accepts holds under every
tighter bound. -/
theorem holds_of_further_search (hstep : c.stepLimit = none) (hfirst : first.NonErasing)
    (hsecond : second.NonErasing) (hfurther : ∀ l, c.searchMaxLen = some l → c.maxLen ≤ l)
    (hm : (c.search first firstStart second secondStart).Matches m) :
    c.Holds first second secondStart m := by
  unfold RenamingSearch.Matches search at hm
  unfold Holds language bounds
  rw [hstep] at hm ⊢
  exact (Renaming.nonErasing_apply hfirst m).language_eq_of_tighter hsecond hfurther hm

theorem verdict_ne_of_holds
    (h : ∀ m, (c.search first firstStart second secondStart).Matches m →
      c.Holds first second secondStart m) :
    (c.compare first firstStart second secondStart).report.verdict ≠
      .notEquivalentUnderRenaming := by
  have hending := c.ending_compare first firstStart second secondStart
  generalize (c.compare first firstStart second secondStart).report = r at hending
  cases hending with
  | same _ => exact nofun
  | sameUnder _ _ _ _ => exact nofun
  | differ _ _ => exact nofun
  | differUnder m _ hfound hne => exact absurd (h m (RenamingSearch.sound_of_find? hfound).2) hne

/-- **A renaming is found to fail only if the length bounds differ**, and, where nothing is erased, only if
the search does not go as far as the comparison. -/
theorem verdict_of_length_bounds (c : Config) (first : Grammar) (firstStart : NonTerminal)
    (second : Grammar) (secondStart : NonTerminal) :
    (c.searchMaxLen = some c.maxLen →
      (c.compare first firstStart second secondStart).report.verdict ≠
        .notEquivalentUnderRenaming) ∧
    (c.unify.compare first firstStart second secondStart).report.verdict ≠
      .notEquivalentUnderRenaming ∧
    (c.stepLimit = none → first.NonErasing → second.NonErasing →
      (∀ l, c.searchMaxLen = some l → c.maxLen ≤ l) →
      (c.compare first firstStart second secondStart).report.verdict ≠
        .notEquivalentUnderRenaming) ∧
    ∀ g : Grammar, g.NonErasing → ∀ A d L L', (∀ l, L' = some l → L ≤ l) → ∀ v,
      v ∈ (g.enumerate ⟨d, some L⟩ none A).language ↔
        v ∈ (g.enumerate ⟨d, L'⟩ none A).language ∧ v.length ≤ L := by
  refine ⟨?_, ?_, ?_, ?_⟩
  · exact fun hbound => verdict_ne_of_holds fun _ => holds_of_same_bound hbound
  · exact verdict_ne_of_holds fun _ => holds_of_same_bound rfl
  · intro hstep hfirst hsecond hfurther
    exact verdict_ne_of_holds fun _ =>
      holds_of_further_search hstep hfirst hsecond hfurther
  · exact fun g hg A d L L' hL v => hg.mem_language_iff hL

/-- `S -> aB` and `A -> b` against `S -> aB` and `B -> b`: the search captures `B` within 15 symbols,
and what it finds holds within three. -/
theorem verdict_after_capture :
    let S : NonTerminal := ⟨'S'⟩
    let A : NonTerminal := ⟨'A'⟩
    let B : NonTerminal := ⟨'B'⟩
    let first := Grammar.ofProductions [(S, [.terminal 'a', .nonTerminal B]), (A, [.terminal 'b'])]
    let second := Grammar.ofProductions [(S, [.terminal 'a', .nonTerminal B]),
      (B, [.terminal 'b'])]
    let c : Config := .ofBounds 3 3
    (c.stepLimit = none ∧ first.NonErasing ∧ second.NonErasing ∧
      ∀ l, c.searchMaxLen = some l → c.maxLen ≤ l) ∧
    (c.search first S second S).find? = some (.ofPairs [(S, S), (A, B)]) ∧
    (c.compare first S second S).report.verdict ≠ .notEquivalentUnderRenaming ∧
    (c.unify.searchMaxLen = some c.unify.maxLen ∧
      (c.unify.compare first S second S).report.verdict ≠ .notEquivalentUnderRenaming) ∧
    ['a', 'b'] ∉ (second.enumerate ⟨3, some 1⟩ none S).language := by
  intro S A B first second c
  have hfirst : first.NonErasing := by decide
  have hsecond : second.NonErasing := by decide
  have hfurther : ∀ l, c.searchMaxLen = some l → c.maxLen ≤ l := by
    intro l hl
    obtain rfl := Option.some.inj hl
    decide
  obtain ⟨_, _, hverdict, hlength⟩ := verdict_of_length_bounds c first S second S
  have hcut := hlength second hsecond S 3 1 none nofun ['a', 'b']
  obtain ⟨hunified, _⟩ := verdict_of_length_bounds c.unify first S second S
  exact ⟨⟨rfl, hfirst, hsecond, hfurther⟩, by decide +kernel,
    hverdict rfl hfirst hsecond hfurther, ⟨rfl, hunified rfl⟩,
    fun hmem => absurd (hcut.mp hmem).2 (by decide)⟩

/-- With markers a renaming can fail: `S -> Ba` and `A -> *`, renamed to `B -> *`, spell `a` with two
symbols, where the comparison allows one. -/
example :
    let S : NonTerminal := ⟨'S'⟩
    let first := Grammar.ofProductions [(S, [.nonTerminal ⟨'B'⟩, .terminal 'a']),
      (⟨'A'⟩, [.marker])]
    let second := Grammar.ofProductions [(S, [.terminal 'a']), (⟨'B'⟩, [.terminal 'c'])]
    ((Config.ofBounds 3 1).compare first S second S).report.verdict =
      .notEquivalentUnderRenaming := by
  decide +kernel

end GrammarComparison.Config
