/-! # Finite languages

A finite set of strings, kept in ascending order by code point and without repetition.  `mem_ofList`,
`mem_insert` and `mem_sdiff` say what the operations do to this set. -/

namespace GrammarComparison

/-- A finite set of strings in ascending order. -/
structure Language where
  words : List (List Char)
  ascending : words.Pairwise fun u v => compare u v = .lt
  deriving DecidableEq

namespace Language

/-! ### Ascending lists -/

/-- Adds `w` to an ascending list, at its place and only once. -/
def insertSorted (w : List Char) : List (List Char) → List (List Char)
  | [] => [w]
  | v :: vs =>
    match compare w v with
    | .lt => w :: v :: vs
    | .eq => v :: vs
    | .gt => v :: insertSorted w vs

/-- Drops repetitions from a list in which equal strings stand side by side. -/
def squeeze : List (List Char) → List (List Char)
  | [] => []
  | [w] => [w]
  | v :: w :: ws => if v = w then squeeze (w :: ws) else v :: squeeze (w :: ws)

theorem mem_insertSorted {w v : List Char} {ws : List (List Char)} :
    v ∈ insertSorted w ws ↔ v = w ∨ v ∈ ws := by
  induction ws with
  | nil => simp [insertSorted]
  | cons u us ih =>
    unfold insertSorted
    split
    · simp
    · next h => simp [Std.LawfulEqOrd.eq_of_compare h]
    · simp [ih, or_left_comm]

theorem ascending_insertSorted {w : List Char} {ws : List (List Char)}
    (h : ws.Pairwise fun u v => compare u v = .lt) :
    (insertSorted w ws).Pairwise fun u v => compare u v = .lt := by
  induction ws with
  | nil => simp [insertSorted]
  | cons u us ih =>
    obtain ⟨hu, hus⟩ := List.pairwise_cons.mp h
    unfold insertSorted
    split
    · next hlt =>
      refine List.pairwise_cons.mpr ⟨fun v hv => ?_, h⟩
      rcases List.mem_cons.mp hv with rfl | hv
      · exact hlt
      · exact Std.TransCmp.lt_trans hlt (hu v hv)
    · exact h
    · next hgt =>
      refine List.pairwise_cons.mpr ⟨fun v hv => ?_, ih hus⟩
      rcases mem_insertSorted.mp hv with rfl | hv
      · exact Std.OrientedCmp.gt_iff_lt.mp hgt
      · exact hu v hv

theorem mem_squeeze {v : List Char} {ws : List (List Char)} : v ∈ squeeze ws ↔ v ∈ ws := by
  fun_induction squeeze ws with
  | case1 => rfl
  | case2 => rfl
  | case3 w ws ih => simp [ih]
  | case4 u w ws h ih => simp [ih]

theorem ascending_squeeze {ws : List (List Char)}
    (h : ws.Pairwise fun u v => (compare u v).isLE = true) :
    (squeeze ws).Pairwise fun u v => compare u v = .lt := by
  fun_induction squeeze ws with
  | case1 => exact .nil
  | case2 => simp
  | case3 w ws ih => exact ih (List.pairwise_cons.mp h).2
  | case4 u w ws hne ih =>
    obtain ⟨hu, hws⟩ := List.pairwise_cons.mp h
    refine List.pairwise_cons.mpr ⟨fun v hv => ?_, ih hws⟩
    have huw : compare u w = .lt := by
      rcases Ordering.isLE_iff_eq_lt_or_eq_eq.mp (hu w (by simp)) with h | h
      · exact h
      · exact absurd (Std.LawfulEqOrd.eq_of_compare h) hne
    rcases List.mem_cons.mp (mem_squeeze.mp hv) with rfl | hv
    · exact huw
    · exact Std.TransCmp.lt_of_lt_of_isLE huw ((List.pairwise_cons.mp hws).1 v hv)

/-! ### Operations -/

/-- The language without strings. -/
def empty : Language := ⟨[], .nil⟩

theorem pairwise_sort (ws : List (List Char)) :
    (ws.mergeSort fun u v => (compare u v).isLE).Pairwise fun u v => (compare u v).isLE = true := by
  refine List.pairwise_mergeSort (fun _ _ _ => Std.TransCmp.isLE_trans) (fun u v => ?_) ws
  have hswap : compare v u = (compare u v).swap := Std.OrientedCmp.eq_swap
  rw [hswap]
  cases compare u v <;> rfl

/-- The language of the given strings. -/
def ofList (ws : List (List Char)) : Language :=
  ⟨squeeze (ws.mergeSort fun u v => (compare u v).isLE), ascending_squeeze (pairwise_sort ws)⟩

/-- The language with the string `w` added. -/
def insert (l : Language) (w : List Char) : Language :=
  ⟨insertSorted w l.words, ascending_insertSorted l.ascending⟩

/-- The strings of `l` that are not in `m`. -/
def sdiff (l m : Language) : Language :=
  ⟨l.words.filter (· ∉ m.words), l.ascending.filter _⟩

/-- The number of strings. -/
def size (l : Language) : Nat := l.words.length

instance : Membership (List Char) Language := ⟨fun l w => w ∈ l.words⟩

instance (w : List Char) (l : Language) : Decidable (w ∈ l) :=
  inferInstanceAs (Decidable (w ∈ l.words))

/-- A language is a part of another if all its strings are in the other. -/
instance : HasSubset Language := ⟨fun l m => ∀ w ∈ l, w ∈ m⟩

/-! ### Membership -/

theorem mem_iff {w : List Char} {l : Language} : w ∈ l ↔ w ∈ l.words := Iff.rfl

theorem subset_iff {l m : Language} : l ⊆ m ↔ ∀ w ∈ l, w ∈ m := Iff.rfl

@[simp]
theorem mem_ofList {w : List Char} {ws : List (List Char)} : w ∈ ofList ws ↔ w ∈ ws := by
  simp [mem_iff, ofList, mem_squeeze]

@[simp]
theorem mem_insert {v w : List Char} {l : Language} : v ∈ l.insert w ↔ v = w ∨ v ∈ l :=
  mem_insertSorted

@[simp]
theorem mem_sdiff {w : List Char} {l m : Language} : w ∈ l.sdiff m ↔ w ∈ l ∧ w ∉ m := by
  simp [mem_iff, sdiff]

@[simp]
theorem not_mem_empty {w : List Char} : w ∉ empty := by simp [mem_iff, empty]

end Language

end GrammarComparison
