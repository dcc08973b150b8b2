import GrammarComparison.Proofs.Enumeration.BreadthFirst
import GrammarComparison.Proofs.Renaming.Candidates

/-! # Renaming loses no string

A renaming may send several non-terminals to one, merge their productions and give an undefined
non-terminal the productions of a head.  Whatever it does, it takes each leftmost step to a step
(`LeftStep.renameWord`) and changes neither the length of a form nor a form without non-terminals,
so that what the grammar generates is generated by the renamed grammar as well
(`Grammar.Generates.rename`).  The renamed grammar may generate more.

A search accepts a candidate only if it leads to the language of the second grammar.  So the
language of the first grammar must be a part of that language for a search to succeed
(`enumerate_subset_apply`). -/

namespace GrammarComparison

variable {g : Grammar} {b : Bounds} {A : NonTerminal} {v : List Char} {w x : Word}

/-! ### Derivations renamed -/

theorem Grammar.Produces.rename (h : g.Produces A w) (m : Renaming) :
    (m.apply g).Produces (m.rename A) (m.renameWord w) :=
  Renaming.produces_apply.mpr ⟨A, w, h, rfl, rfl⟩

theorem LeftStep.renameWord (m : Renaming) (h : LeftStep g w x) :
    LeftStep (m.apply g) (m.renameWord w) (m.renameWord x) := by
  obtain ⟨u, A, v, p, rfl, hu, hp, rfl⟩ := h
  refine ⟨m.renameWord u, m.rename A, m.renameWord v, m.renameWord p, ?_, ?_, hp.rename m, ?_⟩
  · rw [Renaming.renameWord_append]
    rfl
  · rwa [Renaming.isTerminal_renameWord]
  · rw [Renaming.renameWord_append, Renaming.renameWord_append]

theorem Renaming.fits_renameWord (m : Renaming) (b : Bounds) (w : Word) :
    b.Fits (m.renameWord w) ↔ b.Fits w := by
  unfold Bounds.Fits
  rw [length_renameWord]

/-- What a grammar generates is generated by the renamed grammar, whatever the renaming merges. -/
theorem Grammar.Generates.rename (m : Renaming) (h : g.Generates b A v) :
    (m.apply g).Generates b (m.rename A) v := by
  obtain ⟨n, w, hn, hw, hterm, hspell⟩ := h
  have hfits : ∀ w, b.Fits w → b.Fits (m.renameWord w) := by
    intro w hw
    rwa [m.fits_renameWord]
  have hmapped := hw.map m.renameWord (fun _ _ hstep => hstep.renameWord m) hfits
  rw [m.renameWord_of_isTerminal hterm] at hmapped
  exact ⟨n, w, hn, hmapped, hterm, hspell⟩

/-! ### Languages -/

theorem Renaming.language_subset_apply (g : Grammar) (m : Renaming) (A : NonTerminal) (b : Bounds) :
    (g.enumerate b none A).language ⊆ ((m.apply g).enumerate b none (m.rename A)).language := by
  intro v hv
  rw [mem_language_iff_generates] at hv ⊢
  exact hv.rename m

/-- **Renaming loses no string**, so that a search finds a renaming only if the first language is a part
of the second. -/
theorem enumerate_subset_apply :
    (∀ (g : Grammar) (m : Renaming) (A : NonTerminal) (b : Bounds),
      (g.enumerate b none A).language ⊆ ((m.apply g).enumerate b none (m.rename A)).language) ∧
    ∀ (r : RenamingSearch) (m : Renaming), r.stepLimit = none → r.find? = some m →
      (r.first.enumerate r.bounds none r.firstStart).language ⊆
        (r.second.enumerate r.bounds none r.secondStart).language := by
  refine ⟨Renaming.language_subset_apply, ?_⟩
  intro r m hlimit hfind
  obtain ⟨hm, haccepts⟩ := RenamingSearch.mem_candidates_of_find? hfind
  have haccepted : (r.enumerateUnder m).language = r.target.language := eq_of_beq haccepts
  have hstart : m.rename r.firstStart = r.secondStart :=
    (RenamingSearch.assigns_of_mem_candidates hm).start
  have hsubset := m.language_subset_apply r.first r.firstStart r.bounds
  unfold RenamingSearch.enumerateUnder RenamingSearch.target at haccepted
  rw [hlimit] at haccepted
  rwa [hstart, haccepted] at hsubset

/-- Sending `A` and `B` to one head keeps both strings of `S -> A | B`.  The search that renames
`A -> b` to `D -> b`, and so captures the undefined `D` of `S -> b | D`, can succeed because `b` is a
string of the second grammar as well. -/
theorem enumerate_merged_heads :
    let S : NonTerminal := ⟨'S'⟩
    let A : NonTerminal := ⟨'A'⟩
    let B : NonTerminal := ⟨'B'⟩
    let D : NonTerminal := ⟨'D'⟩
    let g := Grammar.ofProductions [(S, [.nonTerminal A]), (S, [.nonTerminal B]),
      (A, [.terminal 'a']), (B, [.terminal 'b'])]
    let m := Renaming.ofPairs [(A, D), (B, D)]
    let first := Grammar.ofProductions [(S, [.terminal 'b']), (S, [.nonTerminal D]),
      (A, [.terminal 'b'])]
    let second := Grammar.ofProductions [(S, [.nonTerminal D]), (D, [.terminal 'b'])]
    let b : Bounds := ⟨3, some 2⟩
    let r : RenamingSearch := ⟨first, S, second, S, b, false, none, none⟩
    (g.enumerate b none S).language ⊆ ((m.apply g).enumerate b none S).language ∧
      r.stepLimit = none ∧ r.find? = some (.ofPairs [(S, S), (A, D)]) ∧
      (first.enumerate b none S).language ⊆ (second.enumerate b none S).language := by
  intro S A B D g m first second b r
  have hfind : r.find? = some (.ofPairs [(S, S), (A, D)]) := by decide +kernel
  obtain ⟨hrenamed, hsearch⟩ := enumerate_subset_apply
  exact ⟨hrenamed g m S b, rfl, hfind, hsearch r _ rfl hfind⟩

end GrammarComparison
