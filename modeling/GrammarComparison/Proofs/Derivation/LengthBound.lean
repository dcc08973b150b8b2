import GrammarComparison.Proofs.Derivation.AnyOrder
import GrammarComparison.Proofs.Language

/-! # What a length bound cuts off

The length bound limits the forms of a derivation, markers counted, and not the strings.  The two
come to the same where no production is empty or holds a marker (`Grammar.NonErasing`): forms never
shrink then, and a form without non-terminals is as long as the string that it spells.  A tighter
bound cuts off the longer strings and no others (`Grammar.NonErasing.mem_language_iff`), so that two
such grammars with the same strings under one bound have the same strings under every tighter one
(`Grammar.NonErasing.language_eq_of_tighter`). -/

namespace GrammarComparison

variable {g h : Grammar} {b : Bounds} {n d L : Nat} {L' : Option Nat} {A B : NonTerminal} {w x : Word}
  {v : List Char}

/-! ### Grammars that erase nothing -/

/-- No production is empty or holds a marker: every symbol of a form leaves something in the string
that is derived from it. -/
def Grammar.NonErasing (g : Grammar) : Prop :=
  ∀ A w, g.Produces A w → w ≠ [] ∧ Symbol.marker ∉ w

instance (g : Grammar) : Decidable g.NonErasing :=
  decidable_of_iff (∀ p ∈ g.productions, p.2 ≠ [] ∧ Symbol.marker ∉ p.2)
    (Grammar.forall_produces_iff (P := fun _ w => w ≠ [] ∧ Symbol.marker ∉ w)).symm

theorem Grammar.NonErasing.noEmptyProduction (hg : g.NonErasing) : g.NoEmptyProduction :=
  fun A w hw => (hg A w hw).1

theorem Renaming.nonErasing_apply (hg : g.NonErasing) (m : Renaming) : (m.apply g).NonErasing := by
  intro B v hv
  refine ⟨noEmptyProduction_apply hg.noEmptyProduction m B v hv, ?_⟩
  obtain ⟨A, w, hw, _, rfl⟩ := produces_apply.mp hv
  intro hmarker
  obtain ⟨s, hs, heq⟩ := List.mem_map.mp hmarker
  exact (hg A w hw).2 (renameSymbol_eq_marker_iff.mp heq ▸ hs)

/-! ### Forms and strings -/

theorem Step.not_mem_marker (hg : g.NonErasing) (hstep : Step g w x) (hw : Symbol.marker ∉ w) :
    Symbol.marker ∉ x := by
  obtain ⟨u, A, v, p, rfl, hp, rfl⟩ := hstep
  have hp' := (hg A p hp).2
  simp only [List.mem_append, List.mem_cons, not_or] at hw ⊢
  exact ⟨⟨hw.1, hp'⟩, hw.2.2⟩

theorem Rewrites.not_mem_marker (hg : g.NonErasing) (hx : Rewrites g n w x)
    (hw : Symbol.marker ∉ w) : Symbol.marker ∉ x := by
  induction hx with
  | refl _ => exact hw
  | head hstep _ ih => exact ih (hstep.not_mem_marker hg hw)

theorem Word.length_spelling (hw : Symbol.marker ∉ w) : (spelling w).length = w.length := by
  have hkeep : ∀ s ∈ w, (s != Symbol.marker) = true := by
    intro s hs
    rw [bne_iff_ne]
    exact fun heq => hw (heq ▸ hs)
  unfold spelling
  rw [List.length_map, List.filter_eq_self.mpr hkeep]

/-! ### Languages -/

namespace Grammar.NonErasing

theorem generates_iff (hg : g.NonErasing) :
    g.Generates b A v ↔
      (∃ n w, n ≤ b.maxDepth ∧ Rewrites g n [.nonTerminal A] w ∧ w.isTerminal ∧ w.spelling = v) ∧
      ∀ L, b.maxLen = some L → v.length ≤ L := by
  have hback : ∀ w x, LeftStep g w x → b.Fits x → b.Fits w := by
    intro w x hstep hx
    exact fun L hL => Nat.le_trans (hstep.length_le hg.noEmptyProduction) (hx L hL)
  have hlength : ∀ n w, Rewrites g n [.nonTerminal A] w → w.spelling.length = w.length :=
    fun n w hw => Word.length_spelling (hw.not_mem_marker hg (by simp))
  rw [generates_iff_rewrites hback]
  constructor
  · rintro ⟨n, w, hn, hw, hterm, hfits, rfl⟩
    refine ⟨⟨n, w, hn, hw, hterm, rfl⟩, ?_⟩
    rw [hlength n w hw]
    exact hfits
  · rintro ⟨⟨n, w, hn, hw, hterm, rfl⟩, hfits⟩
    rw [hlength n w hw] at hfits
    exact ⟨n, w, hn, hw, hterm, hfits, rfl⟩

/-- **A tighter length bound cuts off the longer strings** and no others. -/
theorem mem_language_iff (hg : g.NonErasing) (hL : ∀ l, L' = some l → L ≤ l) :
    v ∈ (g.enumerate ⟨d, some L⟩ none A).language ↔
      v ∈ (g.enumerate ⟨d, L'⟩ none A).language ∧ v.length ≤ L := by
  rw [mem_language_iff_generates, mem_language_iff_generates, hg.generates_iff, hg.generates_iff]
  simp only [Option.some.injEq, forall_eq']
  constructor
  · rintro ⟨hderived, hlength⟩
    exact ⟨⟨hderived, fun l hl => Nat.le_trans hlength (hL l hl)⟩, hlength⟩
  · rintro ⟨⟨hderived, _⟩, hlength⟩
    exact ⟨hderived, hlength⟩

theorem language_eq_of_tighter (hg : g.NonErasing) (hh : h.NonErasing)
    (hL : ∀ l, L' = some l → L ≤ l)
    (heq : (g.enumerate ⟨d, L'⟩ none A).language = (h.enumerate ⟨d, L'⟩ none B).language) :
    (g.enumerate ⟨d, some L⟩ none A).language = (h.enumerate ⟨d, some L⟩ none B).language := by
  ext v
  rw [hg.mem_language_iff hL, hh.mem_language_iff hL, heq]

end Grammar.NonErasing

end GrammarComparison
