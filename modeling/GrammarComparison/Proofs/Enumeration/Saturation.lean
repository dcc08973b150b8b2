import Mathlib.Data.Set.Card
import GrammarComparison.Proofs.Derivation.Monotone
import GrammarComparison.Proofs.Enumeration.Termination
import GrammarComparison.Proofs.Language

/-! # Saturation in depth

More steps let a search visit more forms.  If one step more brings in no new form, then no number of
steps does, as a derivation leads from visited forms to visited forms one step at a time
(`Grammar.SaturatedAt.reaches`): the language stays what it is.

Under a length bound this happens at some depth.  All forms are words over the symbols of the grammar
that are no longer than the bound (`Derives.over_alphabet`), and each step before saturation brings in
one of them at least, so that saturation comes no later than at their number
(`Grammar.exists_saturatedAt`).  `enumerate_saturates` states both. -/

namespace GrammarComparison

/-- The symbols of the forms that `A` may derive: `A` and the symbols of the productions. -/
def Grammar.alphabet (g : Grammar) (A : NonTerminal) : List Symbol :=
  .nonTerminal A :: g.productions.flatMap Prod.snd

/-- The words of at most `n` symbols of `σ`. -/
def Word.upTo (σ : List Symbol) : Nat → List Word
  | 0 => [[]]
  | n + 1 => [] :: σ.flatMap fun s => (upTo σ n).map (s :: ·)

/-- What is derived in `d + 1` steps at most is derived in `d` steps at most. -/
def Grammar.SaturatedAt (g : Grammar) (maxLen : Option Nat) (A : NonTerminal) (d : Nat) : Prop :=
  ∀ w, g.Reaches ⟨d + 1, maxLen⟩ A w → g.Reaches ⟨d, maxLen⟩ A w

variable {g : Grammar} {b : Bounds} {maxLen : Option Nat} {A : NonTerminal} {d d' n L : Nat}
  {σ : List Symbol} {w x : Word} {v : List Char}

/-! ### Saturation lasts -/

theorem Derives.any_depth (hx : Derives g ⟨d, maxLen⟩ n w x) : Derives g ⟨d', maxLen⟩ n w x := by
  refine hx.mono (fun _ _ hrule => hrule) ?_
  exact fun _ hfits => hfits

namespace Grammar

theorem Reaches.of_le (hw : g.Reaches ⟨d, maxLen⟩ A w) (hd : d ≤ d') :
    g.Reaches ⟨d', maxLen⟩ A w := by
  obtain ⟨n, hn, hw⟩ := hw
  exact ⟨n, Nat.le_trans hn hd, hw.any_depth⟩

/-- Once no step brings in new forms, no number of steps does. -/
theorem SaturatedAt.reaches (hsat : g.SaturatedAt maxLen A d) (hw : g.Reaches ⟨d', maxLen⟩ A w) :
    g.Reaches ⟨d, maxLen⟩ A w := by
  obtain ⟨n, -, hw⟩ := hw
  induction hw using Derives.induct_from with
  | refl hfits => exact ⟨0, Nat.zero_le d, .refl hfits⟩
  | tail _ hstep hy ih =>
      obtain ⟨n, hn, hx⟩ := ih
      exact hsat _ ⟨n + 1, Nat.succ_le_succ hn, .tail hx.any_depth hstep hy⟩

theorem generates_iff_reaches :
    g.Generates b A v ↔ ∃ w, g.Reaches b A w ∧ w.isTerminal ∧ w.spelling = v := by
  constructor
  · rintro ⟨n, w, hn, hw, hterm, hspell⟩
    exact ⟨w, ⟨n, hn, hw⟩, hterm, hspell⟩
  · rintro ⟨w, ⟨n, hn, hw⟩, hterm, hspell⟩
    exact ⟨n, w, hn, hw, hterm, hspell⟩

theorem SaturatedAt.language_eq (hsat : g.SaturatedAt maxLen A d) (hd : d ≤ d') :
    (g.enumerate ⟨d', maxLen⟩ none A).language = (g.enumerate ⟨d, maxLen⟩ none A).language := by
  ext v
  simp only [mem_language_iff_generates, generates_iff_reaches]
  refine exists_congr fun w => and_congr_left fun _ => ?_
  exact ⟨hsat.reaches, fun hw => hw.of_le hd⟩

/-! ### The forms of a search -/

/-- The forms that a search visits without step limit. -/
def visitedForms (g : Grammar) (b : Bounds) (A : NonTerminal) : Finset Word :=
  ((Search.start A).run g b none).forms.toFinset

theorem mem_visitedForms_iff : w ∈ g.visitedForms b A ↔ g.Reaches b A w := by
  unfold visitedForms
  rw [List.mem_toFinset]
  exact Search.mem_forms_run_iff

theorem card_visitedForms_lt (hsat : ¬ g.SaturatedAt maxLen A d) :
    (g.visitedForms ⟨d, maxLen⟩ A).card < (g.visitedForms ⟨d + 1, maxLen⟩ A).card := by
  refine Finset.card_lt_card ⟨fun w hw => ?_, fun hsub => hsat fun w hw => ?_⟩
  · rw [mem_visitedForms_iff] at hw ⊢
    exact hw.of_le (Nat.le_succ d)
  · rw [← mem_visitedForms_iff] at hw ⊢
    exact hsub hw

theorem exists_saturatedAt {N : Nat} (hN : ∀ d, (g.visitedForms ⟨d, maxLen⟩ A).card ≤ N) :
    ∃ d ≤ N, g.SaturatedAt maxLen A d := by
  by_contra hnone
  -- as long as there is no saturation, each step brings in a form, up to one more than there can be
  have hgrows : ∀ d ≤ N + 1, d ≤ (g.visitedForms ⟨d, maxLen⟩ A).card := by
    intro d hd
    induction d with
    | zero => exact Nat.zero_le _
    | succ d ih =>
        have hmore := card_visitedForms_lt fun hsat => hnone ⟨d, Nat.le_of_succ_le_succ hd, hsat⟩
        exact Nat.lt_of_le_of_lt (ih (Nat.le_of_succ_le hd)) hmore
  exact absurd (hN (N + 1)) (Nat.not_le.mpr (hgrows (N + 1) (Nat.le_refl _)))

end Grammar

/-! ### The words there are -/

theorem Word.mem_upTo_iff : w ∈ upTo σ n ↔ w.length ≤ n ∧ ∀ s ∈ w, s ∈ σ := by
  induction n generalizing w with
  | zero => cases w <;> simp [upTo]
  | succ n ih =>
      cases w with
      | nil => simp [upTo]
      | cons s w => simp [upTo, ih, and_left_comm]

theorem Word.ncard_upTo (σ : List Symbol) (n : Nat) :
    {w : Word | w.length ≤ n ∧ ∀ s ∈ w, s ∈ σ}.ncard = (upTo σ n).toFinset.card := by
  have hset : {w : Word | w.length ≤ n ∧ ∀ s ∈ w, s ∈ σ} = ↑(upTo σ n).toFinset := by
    ext w
    simp [mem_upTo_iff]
  rw [hset, Set.ncard_coe_finset]

theorem LeftStep.over_alphabet (hstep : LeftStep g w x) (hw : ∀ s ∈ w, s ∈ g.alphabet A) :
    ∀ s ∈ x, s ∈ g.alphabet A := by
  obtain ⟨u, B, v, p, rfl, _, hp, rfl⟩ := hstep
  intro s hs
  simp only [List.mem_append, List.mem_cons] at hs hw
  rcases hs with (hs | hs) | hs
  · exact hw s (.inl hs)
  · exact List.mem_cons_of_mem _ (List.mem_flatMap.mpr ⟨(B, p), Grammar.mem_productions_iff.mpr hp, hs⟩)
  · exact hw s (.inr (.inr hs))

/-- All forms are words over the symbols of the grammar. -/
theorem Derives.over_alphabet (hw : Derives g b n [.nonTerminal A] w) :
    ∀ s ∈ w, s ∈ g.alphabet A := by
  induction hw using Derives.induct_from with
  | refl _ =>
      intro s hs
      exact List.mem_singleton.mp hs ▸ List.mem_cons_self
  | tail _ hstep _ ih => exact hstep.over_alphabet ih

theorem Grammar.card_visitedForms_le (g : Grammar) (A : NonTerminal) (L d : Nat) :
    (g.visitedForms ⟨d, some L⟩ A).card ≤ (Word.upTo (g.alphabet A) L).toFinset.card := by
  refine Finset.card_le_card fun w hw => ?_
  obtain ⟨n, _, hderives⟩ := mem_visitedForms_iff.mp hw
  have hlength : w.length ≤ L := hderives.fits L rfl
  exact List.mem_toFinset.mpr (Word.mem_upTo_iff.mpr ⟨hlength, hderives.over_alphabet⟩)

/-! ### Languages -/

/-- **The depth saturates**: under a length bound at the number of words there are, and in any case where
one step more visits no new form. -/
theorem enumerate_saturates (g : Grammar) (A : NonTerminal) :
    (∀ L, let N := {w : Word | w.length ≤ L ∧ ∀ s ∈ w, s ∈ g.alphabet A}.ncard
      ∀ d d', N ≤ d → N ≤ d' →
        (g.enumerate ⟨d, some L⟩ none A).language = (g.enumerate ⟨d', some L⟩ none A).language) ∧
    ∀ maxLen d,
      (∀ w, w ∈ ((Search.start A).run g ⟨d, maxLen⟩ none).forms ↔
        w ∈ ((Search.start A).run g ⟨d + 1, maxLen⟩ none).forms) →
      ∀ d', d ≤ d' →
        (g.enumerate ⟨d', maxLen⟩ none A).language = (g.enumerate ⟨d, maxLen⟩ none A).language := by
  constructor
  · intro L N d d' hd hd'
    obtain ⟨c, hc, hsat⟩ := Grammar.exists_saturatedAt (g.card_visitedForms_le A L)
    have hcN : c ≤ N := hc.trans_eq (Word.ncard_upTo (g.alphabet A) L).symm
    rw [hsat.language_eq (Nat.le_trans hcN hd), hsat.language_eq (Nat.le_trans hcN hd')]
  · intro maxLen d hforms d' hd
    have hsat : g.SaturatedAt maxLen A d := by
      intro w hw
      exact Search.mem_forms_run_iff.mp ((hforms w).mpr (Search.mem_forms_run_iff.mpr hw))
    exact hsat.language_eq hd

/-- With the cyclic rules `S -> SS | a` and two symbols at most there are seven words over `S` and `a`,
so that seven steps find what forty do.  In fact three steps already visit all forms. -/
theorem enumerate_saturates_doubling :
    let S : NonTerminal := ⟨'S'⟩
    let g := Grammar.ofProductions [(S, [.nonTerminal S, .nonTerminal S]), (S, [.terminal 'a'])]
    let forms := fun d => ((Search.start S).run g ⟨d, some 2⟩ none).forms
    {w : Word | w.length ≤ 2 ∧ ∀ s ∈ w, s ∈ g.alphabet S}.ncard = 7 ∧
      (g.enumerate ⟨7, some 2⟩ none S).language = (g.enumerate ⟨40, some 2⟩ none S).language ∧
      (∀ w, w ∈ forms 3 ↔ w ∈ forms 4) ∧
      (g.enumerate ⟨40, some 2⟩ none S).language = (g.enumerate ⟨3, some 2⟩ none S).language := by
  intro S g forms
  have hcount : {w : Word | w.length ≤ 2 ∧ ∀ s ∈ w, s ∈ g.alphabet S}.ncard = 7 := by
    rw [Word.ncard_upTo]
    decide
  have hforms : forms 3 = forms 4 := by decide +kernel
  have hsame : ∀ w, w ∈ forms 3 ↔ w ∈ forms 4 := fun w => by rw [hforms]
  obtain ⟨hbound, hlast⟩ := enumerate_saturates g S
  refine ⟨hcount, hbound 2 7 40 ?_ ?_, hsame, hlast (some 2) 3 hsame 40 (by decide)⟩
  · rw [hcount]
  · rw [hcount]
    decide

end GrammarComparison
