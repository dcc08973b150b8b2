import Mathlib.Data.Nat.Factorial.Basic
import GrammarComparison.Arrangement

/-! # What arrangements are

In a list without repetition an element is picked together with the rest of the list (`picks_eq`),
and the arrangements of `k` elements are just the lists of `k` different elements
(`mem_arrangements_iff`).  Of `n` elements there are `n (n - 1) ⋯ (n - k + 1)` arrangements
(`length_arrangements`), the first of which has the first `k` elements as they stand
(`head?_arrangements`).  They come in the lexicographic order of whatever order the list is in
(`pairwise_arrangements`). -/

namespace GrammarComparison

variable {α : Type}

/-! ### What is picked -/

theorem map_fst_picks (xs : List α) : (picks xs).map Prod.fst = xs := by
  induction xs with
  | nil => rfl
  | cons x xs ih =>
      rw [picks, List.map_cons, List.map_map]
      exact congrArg (x :: ·) ih

theorem length_picks (xs : List α) : (picks xs).length = xs.length := by
  rw [← List.length_map Prod.fst, map_fst_picks]

theorem length_rest_of_mem_picks {xs : List α} {p : α × List α} (h : p ∈ picks xs) :
    p.2.length + 1 = xs.length := by
  induction xs generalizing p with
  | nil => simp [picks] at h
  | cons x xs ih =>
      rcases List.mem_cons.mp h with rfl | hp
      · rfl
      · obtain ⟨q, hq, rfl⟩ := List.mem_map.mp hp
        rw [List.length_cons, List.length_cons, ih hq]

theorem rest_sublist_of_mem_picks {xs : List α} {p : α × List α} (h : p ∈ picks xs) :
    p.2.Sublist xs := by
  induction xs generalizing p with
  | nil => simp [picks] at h
  | cons x xs ih =>
      rcases List.mem_cons.mp h with rfl | hp
      · exact List.sublist_cons_self x xs
      · obtain ⟨q, hq, rfl⟩ := List.mem_map.mp hp
        exact (ih hq).cons_cons x

/-! ### How many there are -/

theorem length_arrangements (k : Nat) (xs : List α) :
    (arrangements k xs).length = xs.length.descFactorial k := by
  induction k generalizing xs with
  | zero => rfl
  | succ k ih =>
      cases xs with
      | nil => exact (Nat.zero_descFactorial_succ k).symm
      | cons x xs =>
          have hrest : ∀ p ∈ picks (x :: xs),
              ((arrangements k p.2).map (p.1 :: ·)).length = xs.length.descFactorial k := by
            intro p hp
            have hlength := length_rest_of_mem_picks hp
            rw [List.length_cons, Nat.add_right_cancel_iff] at hlength
            rw [List.length_map, ih, hlength]
          rw [arrangements, List.length_flatMap, List.map_congr_left hrest, List.map_const',
            List.sum_replicate_nat, length_picks, List.length_cons, Nat.succ_descFactorial_succ]

/-! ### In which order they come -/

/-- Arrangements of a list that is in order come in lexicographic order. -/
theorem pairwise_arrangements {R : α → α → Prop} {xs : List α} (hxs : xs.Pairwise R) (k : Nat) :
    (arrangements k xs).Pairwise (List.Lex R) := by
  induction k generalizing xs with
  | zero => exact List.pairwise_singleton _ _
  | succ k ih =>
      rw [arrangements, List.pairwise_flatMap]
      constructor
      · intro p hp
        have hrest := ih (hxs.sublist (rest_sublist_of_mem_picks hp))
        exact List.pairwise_map.mpr (hrest.imp fun h => .cons h)
      · have hfirst : (picks xs).Pairwise fun p q => R p.1 q.1 := by
          rw [← List.pairwise_map, map_fst_picks]
          exact hxs
        refine hfirst.imp fun {p q} hpq ts hts us hus => ?_
        obtain ⟨ts', _, rfl⟩ := List.mem_map.mp hts
        obtain ⟨us', _, rfl⟩ := List.mem_map.mp hus
        exact .rel hpq

/-! ### Which there are -/

theorem head?_arrangements (ts us : List α) :
    (arrangements ts.length (ts ++ us)).head? = some ts := by
  induction ts with
  | nil => rfl
  | cons t ts ih =>
      rw [List.length_cons, List.cons_append, arrangements, picks, List.flatMap_cons,
        List.head?_append, List.head?_map, ih]
      rfl

variable [DecidableEq α]

theorem picks_eq {xs : List α} (hxs : xs.Nodup) : picks xs = xs.map fun x => (x, xs.erase x) := by
  induction xs with
  | nil => rfl
  | cons x xs ih =>
      obtain ⟨hx, hxs'⟩ := List.nodup_cons.mp hxs
      rw [picks, ih hxs', List.map_map, List.map_cons, List.erase_cons_head]
      refine congrArg _ (List.map_congr_left fun y hy => ?_)
      have hne : x ≠ y := fun h => hx (h ▸ hy)
      simp [hne]

theorem mem_arrangements_iff {xs ts : List α} {k : Nat} (hxs : xs.Nodup) :
    ts ∈ arrangements k xs ↔ ts.length = k ∧ ts.Nodup ∧ ∀ t ∈ ts, t ∈ xs := by
  induction k generalizing xs ts with
  | zero =>
      rw [arrangements, List.mem_singleton, List.length_eq_zero_iff]
      constructor
      · rintro rfl
        simp
      · exact fun h => h.1
  | succ k ih =>
      rw [arrangements, picks_eq hxs]
      cases ts with
      | nil => simp
      | cons t ts =>
          simp only [List.flatMap_map, List.mem_flatMap, List.mem_map, List.cons.injEq,
            List.length_cons, Nat.add_right_cancel_iff, List.nodup_cons, List.forall_mem_cons]
          constructor
          · rintro ⟨x, hx, ts', hts, rfl, rfl⟩
            obtain ⟨hlength, hnodup, hmem⟩ := (ih (hxs.erase x)).mp hts
            have hmem' : ∀ y ∈ ts', y ≠ x ∧ y ∈ xs := fun y hy =>
              hxs.mem_erase_iff.mp (hmem y hy)
            exact ⟨hlength, ⟨fun h => (hmem' x h).1 rfl, hnodup⟩, hx, fun y hy => (hmem' y hy).2⟩
          · rintro ⟨hlength, ⟨ht, hnodup⟩, hx, hmem⟩
            refine ⟨t, hx, ts, (ih (hxs.erase t)).mpr ⟨hlength, hnodup, ?_⟩, rfl, rfl⟩
            intro y hy
            exact hxs.mem_erase_iff.mpr ⟨fun h => ht (h ▸ hy), hmem y hy⟩

theorem append_rest_perm {xs ts : List α} (hxs : xs.Nodup) (hts : ts.Nodup)
    (hmem : ∀ t ∈ ts, t ∈ xs) : (ts ++ xs.filter (· ∉ ts)).Perm xs := by
  have hfront : ts.Perm (xs.filter (· ∈ ts)) := by
    refine (List.perm_ext_iff_of_nodup hts (hxs.filter _)).mpr fun t => ?_
    rw [List.mem_filter, decide_eq_true_iff]
    exact ⟨fun ht => ⟨hmem t ht, ht⟩, fun ht => ht.2⟩
  have hparts := List.filter_append_perm (· ∈ ts) xs
  simp only [← decide_not] at hparts
  exact (hfront.append_right _).trans hparts

end GrammarComparison
