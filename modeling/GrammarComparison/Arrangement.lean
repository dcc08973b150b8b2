/-! # Arrangements

The arrangements of `k` elements of a list, in lexicographic order of their positions.  There may be
very many, so `foldArrangements` visits them one after another and can stop before the last;
`foldArrangements_eq` says that it does what folding the whole list would do. -/

namespace GrammarComparison

variable {α σ : Type}

/-- Every element of the list with the elements around it. -/
def picks : List α → List (α × List α)
  | [] => []
  | x :: xs => (x, xs) :: (picks xs).map fun (y, ys) => (y, x :: ys)

/-- The lists of `k` elements of `xs` at different positions, in lexicographic order of these
positions. -/
def arrangements : Nat → List α → List (List α)
  | 0, _ => [[]]
  | k + 1, xs => (picks xs).flatMap fun (x, rest) => (arrangements k rest).map (x :: ·)

/-- Folds over a list until `f` says that it is done. -/
def foldUntil (f : σ → α → ForInStep σ) : σ → List α → ForInStep σ
  | s, [] => .yield s
  | s, x :: xs =>
    match f s x with
    | .yield t => foldUntil f t xs
    | .done t => .done t

/-- Folds over the arrangements of `k` elements of `xs` until `f` says that it is done. -/
def foldArrangements (f : σ → List α → ForInStep σ) : Nat → σ → List α → ForInStep σ
  | 0, s, _ => f s []
  | k + 1, s, xs =>
    foldUntil (fun t p => foldArrangements (fun u ys => f u (p.1 :: ys)) k t p.2) s (picks xs)

/-- The value at the end of a fold. -/
def stepValue : ForInStep σ → σ
  | .yield s => s
  | .done s => s

theorem foldUntil_append (f : σ → α → ForInStep σ) (s : σ) (xs ys : List α) :
    foldUntil f s (xs ++ ys) =
      match foldUntil f s xs with
      | .yield t => foldUntil f t ys
      | .done t => .done t := by
  induction xs generalizing s with
  | nil => rfl
  | cons x xs ih =>
    simp only [List.cons_append, foldUntil]
    cases f s x with
    | yield t => exact ih t
    | done t => rfl

theorem foldUntil_map {β : Type} (f : σ → β → ForInStep σ) (h : α → β) (s : σ) (xs : List α) :
    foldUntil f s (xs.map h) = foldUntil (fun t x => f t (h x)) s xs := by
  induction xs generalizing s with
  | nil => rfl
  | cons x xs ih =>
    simp only [List.map_cons, foldUntil]
    cases f s (h x) with
    | yield t => exact ih t
    | done t => rfl

theorem foldUntil_flatMap {β : Type} (f : σ → β → ForInStep σ) (h : α → List β) (s : σ)
    (xs : List α) :
    foldUntil f s (xs.flatMap h) = foldUntil (fun t x => foldUntil f t (h x)) s xs := by
  induction xs generalizing s with
  | nil => rfl
  | cons x xs ih =>
    simp only [List.flatMap_cons, foldUntil_append, foldUntil]
    cases foldUntil f s (h x) with
    | yield t => exact ih t
    | done t => rfl

/-- Visiting the arrangements one by one is folding over their list. -/
theorem foldArrangements_eq (f : σ → List α → ForInStep σ) (k : Nat) (s : σ) (xs : List α) :
    foldArrangements f k s xs = foldUntil f s (arrangements k xs) := by
  induction k generalizing f s xs with
  | zero =>
    simp only [foldArrangements, arrangements, foldUntil]
    cases f s [] <;> rfl
  | succ k ih => simp only [foldArrangements, arrangements, foldUntil_flatMap, foldUntil_map, ih]

end GrammarComparison
