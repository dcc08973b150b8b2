/-! # First-in first-out queues

A queue kept as two lists, so that taking an element and adding some cost a constant amount of work
on average.  `toList` is what the queue holds, the next element first; `pop?_eq_none_iff`,
`toList_of_pop?` and `toList_pushAll` describe the operations through it. -/

namespace GrammarComparison

/-- A queue: the front in order, the back in reverse. -/
structure Queue (α : Type) where
  front : List α
  back : List α

namespace Queue

variable {α : Type}

/-- What the queue holds, the next element first. -/
def toList (q : Queue α) : List α := q.front ++ q.back.reverse

/-- The queue that holds `x` alone. -/
def single (x : α) : Queue α := ⟨[x], []⟩

/-- The number of elements. -/
def size (q : Queue α) : Nat := q.front.length + q.back.length

/-- The next element and the queue without it. -/
def pop? (q : Queue α) : Option (α × Queue α) :=
  match q.front with
  | x :: xs => some (x, ⟨xs, q.back⟩)
  | [] =>
    match q.back.reverse with
    | x :: xs => some (x, ⟨xs, []⟩)
    | [] => none

/-- The queue with the elements of `xs` added in order. -/
def pushAll (q : Queue α) (xs : List α) : Queue α := ⟨q.front, xs.reverseAux q.back⟩

@[simp]
theorem toList_single (x : α) : (single x).toList = [x] := rfl

@[simp]
theorem size_eq (q : Queue α) : q.size = q.toList.length := by simp [size, toList]

@[simp]
theorem toList_pushAll (q : Queue α) (xs : List α) : (q.pushAll xs).toList = q.toList ++ xs := by
  simp [toList, pushAll, List.reverseAux_eq]

theorem toList_of_pop? {q r : Queue α} {x : α} (h : q.pop? = some (x, r)) :
    q.toList = x :: r.toList := by
  obtain ⟨front, back⟩ := q
  cases front with
  | cons y ys =>
    obtain ⟨rfl, rfl⟩ : y = x ∧ ⟨ys, back⟩ = r := by simpa [pop?] using h
    rfl
  | nil =>
    simp only [pop?] at h
    split at h
    · next y ys hrev =>
      obtain ⟨rfl, rfl⟩ : y = x ∧ ⟨ys, []⟩ = r := by simpa using h
      simp [toList, hrev]
    · exact absurd h (by simp)

theorem pop?_eq_none_iff {q : Queue α} : q.pop? = none ↔ q.toList = [] := by
  obtain ⟨front, back⟩ := q
  cases front with
  | cons y ys => simp [pop?, toList]
  | nil =>
    simp only [pop?]
    split
    · next y ys hrev => simp [toList, hrev]
    · next hrev => simp [toList, hrev]

end Queue

end GrammarComparison
