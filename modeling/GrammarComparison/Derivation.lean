import GrammarComparison.Grammar

/-! # Leftmost derivations

One step replaces the leftmost non-terminal of a form by one of its productions.  `Bounds` limits
how many steps a derivation may take and how long its forms may be; `Derives` is the relation that
the enumeration of a language computes.  `mem_successors_iff` ties its step to `successors`, and
`exceededBy_eq_false_iff` its length bound to the test that the enumeration makes. -/

namespace GrammarComparison

/-- The limits of a derivation. -/
structure Bounds where
  /-- The greatest number of steps. -/
  maxDepth : Nat
  /-- The greatest number of symbols of a form, if it is limited. -/
  maxLen : Option Nat
  deriving DecidableEq, Repr

namespace Bounds

/-- Whether the form has more symbols than the bounds allow. -/
def exceededBy (b : Bounds) (w : Word) : Bool := b.maxLen.any (· < w.length)

/-- The form has no more symbols than the bounds allow. -/
def Fits (b : Bounds) (w : Word) : Prop := ∀ L, b.maxLen = some L → w.length ≤ L

variable {b : Bounds} {w : Word}

theorem exceededBy_eq_false_iff : b.exceededBy w = false ↔ b.Fits w := by
  unfold exceededBy Fits
  cases b.maxLen <;> simp

theorem exceededBy_eq_true_iff : b.exceededBy w = true ↔ ¬ b.Fits w := by
  rw [← exceededBy_eq_false_iff, Bool.not_eq_false]

instance (b : Bounds) (w : Word) : Decidable (b.Fits w) :=
  decidable_of_iff _ exceededBy_eq_false_iff

end Bounds

/-- The forms one leftmost step after `w`, in the order of the productions. -/
def Grammar.successors (g : Grammar) (w : Word) : List Word :=
  match w.splitLeftmost with
  | none => []
  | some (u, A, v) => (g.alternatives A).map fun p => u ++ p ++ v

/-- Replacing the leftmost non-terminal of `w` by one of its productions gives `x`. -/
def LeftStep (g : Grammar) (w x : Word) : Prop :=
  ∃ (u : Word) (A : NonTerminal) (v p : Word),
    w = u ++ .nonTerminal A :: v ∧ u.isTerminal ∧ g.Produces A p ∧ x = u ++ p ++ v

/-- `Derives g b n w x`: `n` leftmost steps lead from `w` to `x` through forms within the length
bound, `w` and `x` included. -/
inductive Derives (g : Grammar) (b : Bounds) : Nat → Word → Word → Prop
  | refl {w : Word} (hw : b.Fits w) : Derives g b 0 w w
  | tail {n : Nat} {w x y : Word} (hx : Derives g b n w x) (hstep : LeftStep g x y)
      (hy : b.Fits y) : Derives g b (n + 1) w y

/-- `g` generates the string `v` from `A`: at most `b.maxDepth` leftmost steps lead to a form without
non-terminals that spells `v`. -/
def Grammar.Generates (g : Grammar) (b : Bounds) (A : NonTerminal) (v : List Char) : Prop :=
  ∃ n w, n ≤ b.maxDepth ∧ Derives g b n [.nonTerminal A] w ∧ w.isTerminal ∧ w.spelling = v

theorem Word.splitLeftmost_append {u v : Word} {A : NonTerminal} (hu : u.isTerminal) :
    splitLeftmost (u ++ .nonTerminal A :: v) = some (u, A, v) := by
  induction u with
  | nil => rfl
  | cons s u ih =>
    simp only [isTerminal, List.all_cons, Bool.and_eq_true] at hu
    cases s with
    | nonTerminal B => simp [Symbol.nonTerminal?] at hu
    | terminal c => simp [splitLeftmost, ih hu.2]
    | marker => simp [splitLeftmost, ih hu.2]

theorem mem_successors_iff {g : Grammar} {w x : Word} : x ∈ g.successors w ↔ LeftStep g w x := by
  unfold Grammar.successors
  constructor
  · intro h
    split at h
    · simp at h
    · next u A v hsplit =>
      obtain ⟨p, hp, rfl⟩ := List.mem_map.mp h
      obtain ⟨rfl, hu⟩ := Word.splitLeftmost_eq_some hsplit
      exact ⟨u, A, v, p, rfl, hu, hp, rfl⟩
  · rintro ⟨u, A, v, p, rfl, hu, hp, rfl⟩
    rw [Word.splitLeftmost_append hu]
    exact List.mem_map.mpr ⟨p, hp, rfl⟩

/-- The successors replace the symbol at the place of the leftmost non-terminal. -/
theorem map_some_successors (g : Grammar) (w : Word) :
    (g.successors w).map some = match w.leftmost? with
      | none => []
      | some (i, A) => (g.alternatives A).map (w.replaceAt? i) := by
  unfold Grammar.successors Word.leftmost?
  cases hsplit : w.splitLeftmost with
  | none => rfl
  | some p =>
    obtain ⟨u, A, v⟩ := p
    obtain ⟨rfl, _⟩ := Word.splitLeftmost_eq_some hsplit
    simp [Word.replaceAt?]

namespace Derives

variable {g : Grammar} {b : Bounds} {n : Nat} {w x y : Word}

theorem fits (h : Derives g b n w x) : b.Fits x := by
  cases h with
  | refl hw => exact hw
  | tail _ _ hy => exact hy

/-- Induction on the steps of a derivation from the form `w`, which stays the same. -/
@[elab_as_elim]
theorem induct_from {motive : ∀ n x, Derives g b n w x → Prop}
    (refl : ∀ hw, motive 0 w (.refl hw))
    (tail : ∀ {n x y} (hx : Derives g b n w x) (hstep : LeftStep g x y) (hy : b.Fits y),
      motive n x hx → motive (n + 1) y (.tail hx hstep hy)) :
    ∀ {n x} (h : Derives g b n w x), motive n x h
  | _, _, .refl hw => refl hw
  | _, _, .tail hx hstep hy => tail hx hstep hy (induct_from refl tail hx)

theorem map {h : Grammar} {c : Bounds} (f : Word → Word)
    (hstep : ∀ w x, LeftStep g w x → LeftStep h (f w) (f x))
    (hfits : ∀ w, b.Fits w → c.Fits (f w))
    (hd : Derives g b n w x) : Derives h c n (f w) (f x) := by
  induction hd with
  | refl hw => exact .refl (hfits _ hw)
  | tail _ hlast hy ih => exact .tail ih (hstep _ _ hlast) (hfits _ hy)

/-- If each step from the image of a form is the image of a step, and forms with an image within the
bound are within the bound, then derivations from the image of a form are images of derivations. -/
theorem lift {h : Grammar} {c : Bounds} (f : Word → Word)
    (hstep : ∀ w y, LeftStep h (f w) y → ∃ x, LeftStep g w x ∧ f x = y)
    (hfits : ∀ w, c.Fits (f w) → b.Fits w)
    (hd : Derives h c n (f w) y) : ∃ x, Derives g b n w x ∧ f x = y := by
  induction hd using induct_from with
  | refl hw => exact ⟨w, .refl (hfits w hw), rfl⟩
  | tail _ hlast hy ih =>
      obtain ⟨x, hx, rfl⟩ := ih
      obtain ⟨z, hz, rfl⟩ := hstep x _ hlast
      exact ⟨z, .tail hx hz (hfits z hy), rfl⟩

end Derives

end GrammarComparison
