import GrammarComparison.Proofs.Derivation.AnyOrder
import GrammarComparison.Proofs.Language

/-! # Erasing the markers

The marker `*` stands for the empty string, but it is a symbol: derivations carry it along, and it is
left out only when a form is spelled.  A grammar whose productions have lost their markers
(`Grammar.eraseMarkers`) derives the same forms without them, one step for one step.  Each step of the
grammar is a step without markers (`LeftStep.eraseMarkers`), and each step from a form that lost its
markers comes from a step of the form with them (`LeftStep.of_eraseMarkers`).

So both generate the same strings (`enumerate_eraseMarkers`), unless a length bound counts the markers
of one grammar, which the other does not have. -/

namespace GrammarComparison

/-- The word without its markers. -/
def Word.eraseMarkers (w : Word) : Word := w.filter (· != .marker)

/-- The grammar with the markers of all its productions erased, where `*` becomes the empty word.
Productions of a head that become equal are one production. -/
def Grammar.eraseMarkers (g : Grammar) : Grammar :=
  .ofProductions (g.productions.map fun (A, w) => (A, w.eraseMarkers))

variable {g : Grammar} {b : Bounds} {A : NonTerminal} {u v w x y : Word}

/-! ### Words without markers -/

namespace Word

theorem eraseMarkers_append (u v : Word) :
    eraseMarkers (u ++ v) = eraseMarkers u ++ eraseMarkers v := List.filter_append u v

theorem eraseMarkers_nonTerminal_cons (A : NonTerminal) (v : Word) :
    eraseMarkers (.nonTerminal A :: v) = .nonTerminal A :: eraseMarkers v := rfl

theorem length_eraseMarkers_le (w : Word) : (eraseMarkers w).length ≤ w.length :=
  List.length_filter_le _ w

theorem isTerminal_eraseMarkers (w : Word) : (eraseMarkers w).isTerminal = w.isTerminal := by
  induction w with
  | nil => rfl
  | cons s w ih =>
      cases s with
      | marker => exact ih
      | terminal c => exact ih
      | nonTerminal A => rfl

theorem spelling_eraseMarkers (w : Word) : (eraseMarkers w).spelling = w.spelling := by
  unfold spelling eraseMarkers
  rw [List.filter_filter]
  simp only [Bool.and_self]

theorem leftmost_unique {u' v' : Word} {B : NonTerminal} (hu : isTerminal u) (hu' : isTerminal u')
    (h : u ++ .nonTerminal A :: v = u' ++ Symbol.nonTerminal B :: v') : u = u' ∧ A = B ∧ v = v' := by
  have hsplit := splitLeftmost_append (v := v) (A := A) hu
  rw [h, splitLeftmost_append hu'] at hsplit
  simpa [eq_comm] using hsplit

end Word

/-! ### Steps without markers -/

theorem Grammar.produces_eraseMarkers :
    g.eraseMarkers.Produces A v ↔ ∃ w, g.Produces A w ∧ w.eraseMarkers = v := by
  simp only [eraseMarkers, produces_ofProductions, List.mem_map, Prod.exists, mem_productions_iff,
    Prod.mk.injEq]
  constructor
  · rintro ⟨B, w, hw, rfl, rfl⟩
    exact ⟨w, hw, rfl⟩
  · rintro ⟨w, hw, rfl⟩
    exact ⟨A, w, hw, rfl, rfl⟩

theorem LeftStep.eraseMarkers (h : LeftStep g w x) :
    LeftStep g.eraseMarkers w.eraseMarkers x.eraseMarkers := by
  obtain ⟨u, A, v, p, rfl, hu, hp, rfl⟩ := h
  refine ⟨u.eraseMarkers, A, v.eraseMarkers, p.eraseMarkers, ?_, ?_, ?_, ?_⟩
  · rw [Word.eraseMarkers_append, Word.eraseMarkers_nonTerminal_cons]
  · rwa [Word.isTerminal_eraseMarkers]
  · exact Grammar.produces_eraseMarkers.mpr ⟨p, hp, rfl⟩
  · rw [Word.eraseMarkers_append, Word.eraseMarkers_append]

/-- A step from a form that lost its markers comes from a step of the form itself. -/
theorem LeftStep.of_eraseMarkers (h : LeftStep g.eraseMarkers w.eraseMarkers y) :
    ∃ x, LeftStep g w x ∧ x.eraseMarkers = y := by
  obtain ⟨u', B, v', p', hw, hu', hp', rfl⟩ := h
  -- erasing keeps the non-terminals, so the leftmost one of `w` is that of the form without markers
  have hterm : ¬ w.isTerminal := by
    rw [← Word.isTerminal_eraseMarkers, hw]
    exact Word.not_isTerminal_append_cons u' v' B
  obtain ⟨u, A, v, rfl, hu⟩ := Word.exists_leftmost hterm
  have hu₀ : u.eraseMarkers.isTerminal := by rwa [Word.isTerminal_eraseMarkers]
  rw [Word.eraseMarkers_append, Word.eraseMarkers_nonTerminal_cons] at hw
  obtain ⟨rfl, rfl, rfl⟩ := Word.leftmost_unique hu₀ hu' hw
  obtain ⟨p, hp, rfl⟩ := Grammar.produces_eraseMarkers.mp hp'
  refine ⟨u ++ p ++ v, ⟨u, A, v, p, rfl, hu, hp, rfl⟩, ?_⟩
  rw [Word.eraseMarkers_append, Word.eraseMarkers_append]

/-! ### Strings -/

theorem Bounds.fits_eraseMarkers (hw : b.Fits w) :
    b.Fits w.eraseMarkers := by
  exact fun L hL => Nat.le_trans w.length_eraseMarkers_le (hw L hL)

theorem Grammar.Generates.eraseMarkers {v : List Char} (h : g.Generates b A v) :
    g.eraseMarkers.Generates b A v := by
  obtain ⟨n, w, hn, hw, hterm, hspell⟩ := h
  have herased := hw.map Word.eraseMarkers (fun _ _ => LeftStep.eraseMarkers)
    fun _ => Bounds.fits_eraseMarkers
  refine ⟨n, w.eraseMarkers, hn, herased, ?_, ?_⟩
  · rwa [Word.isTerminal_eraseMarkers]
  · rwa [Word.spelling_eraseMarkers]

theorem Grammar.Generates.of_eraseMarkers {v : List Char} (hb : b.maxLen = none)
    (h : g.eraseMarkers.Generates b A v) : g.Generates b A v := by
  obtain ⟨n, w, hn, hw, hterm, hspell⟩ := h
  have hfits : ∀ w, b.Fits w := by
    intro w
    simp [Bounds.Fits, hb]
  obtain ⟨x, hx, rfl⟩ := Derives.lift (w := [.nonTerminal A]) Word.eraseMarkers
    (fun _ _ => LeftStep.of_eraseMarkers) (fun w _ => hfits w) hw
  refine ⟨n, x, hn, hx, ?_, ?_⟩
  · rwa [← Word.isTerminal_eraseMarkers]
  · rwa [← Word.spelling_eraseMarkers]

/-- **Markers are transparent but for the length bound.**  Without step limit and length bound a
grammar enumerates the same strings as the grammar with all markers erased, where `*` is the empty
word; under a length bound, which counts markers, it enumerates some of them. -/
theorem enumerate_eraseMarkers (g : Grammar) (A : NonTerminal) (d : Nat) :
    (g.enumerate ⟨d, none⟩ none A).language = (g.eraseMarkers.enumerate ⟨d, none⟩ none A).language ∧
    ∀ L, (g.enumerate ⟨d, some L⟩ none A).language ⊆
      (g.eraseMarkers.enumerate ⟨d, some L⟩ none A).language := by
  constructor
  · ext v
    rw [mem_language_iff_generates, mem_language_iff_generates]
    exact ⟨.eraseMarkers, .of_eraseMarkers rfl⟩
  · intro L v hv
    rw [mem_language_iff_generates] at hv ⊢
    exact hv.eraseMarkers

/-- Within one symbol `S -> *a` has no string, and the same rule without its marker has one. -/
example :
    let S : NonTerminal := ⟨'S'⟩
    let g := Grammar.ofProductions [(S, [.marker, .terminal 'a'])]
    (g.enumerate ⟨1, some 1⟩ none S).language = .empty ∧
      (g.eraseMarkers.enumerate ⟨1, some 1⟩ none S).language = .ofList [['a']] := by
  decide +kernel

end GrammarComparison
