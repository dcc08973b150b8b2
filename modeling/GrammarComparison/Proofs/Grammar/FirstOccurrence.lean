import Mathlib.Data.List.Induction
import Mathlib.Data.List.Nodup
import GrammarComparison.Proofs.Grammar.Table

/-! # The order of first occurrence

A grammar is built rule by rule.  A head takes its place when its first rule comes, and a production
takes its place among those of its head when it first comes; what comes again changes nothing
(`heads_insert`, `alternatives_insert_self`).  The heads of a grammar that is built from a list of rules are
therefore the heads of these rules without later repetitions (`heads_ofProductions`), and the
productions of a head are those of its rules without later repetitions (`alternatives_ofProductions`).
Rules for one head that follow each other count as one where heads are listed (`eraseDups_flatMap`).
Where occurrences are counted, what occurs is listed in the same order (`OrderedMap.entries_tally`).

There is no more to a grammar than these two orders (`eq_of_order`).  So rules may be gathered in a
grammar before they are added to another one: that they stand there head by head, and once each, changes
nothing about the result (`insertMany_productions_ofProductions`). -/

namespace GrammarComparison

/-! ### Lists without later repetitions -/

section

variable {α β : Type} [BEq α] [LawfulBEq α]

theorem eraseDups_concat (xs : List α) (x : α) :
    (xs ++ [x]).eraseDups = if x ∈ xs then xs.eraseDups else xs.eraseDups ++ [x] := by
  rw [List.eraseDups_append]
  split
  · rename_i hx
    simp [List.removeAll, hx]
  · rename_i hx
    simp [List.removeAll, hx, List.eraseDups_cons]

theorem nodup_eraseDups (xs : List α) : xs.eraseDups.Nodup := by
  induction xs using List.reverseRec with
  | nil => exact List.nodup_nil
  | append_singleton xs x ih =>
      rw [eraseDups_concat]
      split
      · exact ih
      · rename_i hx
        rw [← List.concat_eq_append]
        exact ih.concat (mt List.mem_eraseDups.mp hx)

theorem eraseDups_of_nodup {xs : List α} (h : xs.Nodup) : xs.eraseDups = xs := by
  induction xs using List.reverseRec with
  | nil => rfl
  | append_singleton xs x ih =>
      rw [← List.concat_eq_append, List.nodup_concat] at h
      rw [eraseDups_concat, if_neg h.1, ih h.2]

theorem eraseDups_append_eraseDups (xs ys : List α) :
    (xs ++ ys.eraseDups).eraseDups = (xs ++ ys).eraseDups := by
  induction ys using List.reverseRec with
  | nil => rfl
  | append_singleton ys y ih =>
      rw [← List.append_assoc xs ys, eraseDups_concat, eraseDups_concat]
      by_cases hy : y ∈ ys
      · rw [if_pos hy, ih, if_pos (List.mem_append_right xs hy)]
      · rw [if_neg hy, ← List.append_assoc, eraseDups_concat, ih]
        simp only [List.mem_append, List.mem_eraseDups]

theorem eraseDups_append_congr {ys zs : List α} (h : ys.eraseDups = zs.eraseDups) (xs : List α) :
    (xs ++ ys).eraseDups = (xs ++ zs).eraseDups := by
  rw [← eraseDups_append_eraseDups, h, eraseDups_append_eraseDups]

theorem eraseDups_append_of_forall_eq {ys : List α} {x : α} (xs : List α) (hne : ys ≠ [])
    (h : ∀ y ∈ ys, y = x) : (xs ++ ys).eraseDups = (xs ++ [x]).eraseDups := by
  induction ys using List.reverseRec with
  | nil => exact absurd rfl hne
  | append_singleton ys y ih =>
      have hlast : y = x := h y List.mem_concat_self
      have hys : ∀ z ∈ ys, z = x := fun z hz => h z (List.mem_append_left _ hz)
      subst hlast
      cases ys with
      | nil => rfl
      | cons z zs =>
          have hmem : y ∈ xs ++ z :: zs := by
            rw [← hys z List.mem_cons_self]
            exact List.mem_append_right xs List.mem_cons_self
          rw [← List.append_assoc, eraseDups_concat, if_pos hmem, ih (List.cons_ne_nil z zs) hys]

theorem eraseDups_flatMap {as : List β} {f : β → List α} {k : β → α}
    (h : ∀ a ∈ as, f a ≠ [] ∧ ∀ x ∈ f a, x = k a) :
    (as.flatMap f).eraseDups = (as.map k).eraseDups := by
  induction as using List.reverseRec with
  | nil => rfl
  | append_singleton as a ih =>
      have hinit := ih fun b hb => h b (List.mem_append_left _ hb)
      obtain ⟨hne, hcopies⟩ := h a List.mem_concat_self
      have hmem : k a ∈ as.flatMap f ↔ k a ∈ as.map k := by
        rw [← List.mem_eraseDups, hinit, List.mem_eraseDups]
      rw [List.flatMap_append, List.flatMap_singleton, eraseDups_append_of_forall_eq _ hne hcopies,
        List.map_append, List.map_singleton, eraseDups_concat, eraseDups_concat, hinit]
      simp only [hmem]

theorem eraseDups_map [BEq β] [LawfulBEq β] {f : α → β} {xs : List α}
    (h : ∀ a ∈ xs, ∀ b ∈ xs, f a = f b → a = b) :
    (xs.map f).eraseDups = xs.eraseDups.map f := by
  induction xs using List.reverseRec with
  | nil => rfl
  | append_singleton xs x ih =>
      have hinit := ih fun a ha b hb =>
        h a (List.mem_append_left _ ha) b (List.mem_append_left _ hb)
      have hmem : f x ∈ xs.map f ↔ x ∈ xs := by
        constructor
        · intro hx
          obtain ⟨a, ha, hax⟩ := List.mem_map.mp hx
          rwa [← h a (List.mem_append_left _ ha) x List.mem_concat_self hax]
        · exact List.mem_map_of_mem
      rw [List.map_append, List.map_singleton, eraseDups_concat, eraseDups_concat, hinit]
      simp only [hmem]
      split
      · rfl
      · rw [List.map_append, List.map_singleton]

end

/-! ### Counting occurrences -/

namespace OrderedMap

variable {κ ν : Type} [DecidableEq κ]

/-- How often each element occurs, in the order of first occurrence. -/
def tally (ks : List κ) : OrderedMap κ Nat :=
  ks.foldl (fun m k => m.update k fun n => n.getD 0 + 1) .empty

theorem tally_concat (ks : List κ) (k : κ) :
    tally (ks ++ [k]) = (tally ks).update k fun n => n.getD 0 + 1 := List.foldl_append

theorem keys_tally (ks : List κ) : (tally ks).keys = ks.eraseDups := by
  induction ks using List.reverseRec with
  | nil => rfl
  | append_singleton ks k ih =>
      rw [tally_concat, keys_update, eraseDups_concat, ih]
      simp only [List.mem_eraseDups]

theorem get?_tally (ks : List κ) (k : κ) :
    (tally ks).get? k = if k ∈ ks then some (ks.count k) else none := by
  induction ks using List.reverseRec with
  | nil => rfl
  | append_singleton ks j ih =>
      rw [tally_concat, get?_update]
      by_cases hk : k = j
      · subst hk
        rw [ih]
        by_cases hmem : k ∈ ks
        · simp [hmem]
        · simp [hmem, List.count_eq_zero_of_not_mem]
      · rw [if_neg hk, ih]
        simp [hk, Ne.symm hk]

theorem entries_eq_map {m : OrderedMap κ ν} {f : κ → ν} (h : ∀ k ∈ m.keys, m.get? k = some (f k)) :
    m.entries = m.keys.map fun k => (k, f k) := by
  have hself : ∀ e ∈ m.entries, (e.1, f e.1) = id e := by
    intro e he
    have hfound : m.get? e.1 = some e.2 := find?_eq_some_of_mem m.nodup_keys he
    rw [h e.1 (List.mem_map_of_mem he), Option.some.injEq] at hfound
    exact Prod.ext rfl hfound
  unfold keys
  rw [List.map_map]
  exact ((List.map_congr_left hself).trans (List.map_id _)).symm

theorem entries_tally (ks : List κ) :
    (tally ks).entries = ks.eraseDups.map fun k => (k, ks.count k) := by
  rw [← keys_tally]
  refine entries_eq_map fun k hk => ?_
  rw [keys_tally, List.mem_eraseDups] at hk
  rw [get?_tally, if_pos hk]

end OrderedMap

namespace Grammar

variable {g : Grammar} {A B : NonTerminal} {w : Word}

/-! ### Adding a rule -/

theorem heads_insert (g : Grammar) (A : NonTerminal) (w : Word) :
    (g.insert A w).heads = if A ∈ g.heads then g.heads else g.heads ++ [A] :=
  OrderedMap.keys_update g.rules A _

theorem alternatives_insert_self (g : Grammar) (A : NonTerminal) (w : Word) :
    (g.insert A w).alternatives A =
      if w ∈ g.alternatives A then g.alternatives A else g.alternatives A ++ [w] := by
  rw [alternatives_eq, alternatives_eq, table_insert, OrderedMap.find?_upsert, if_pos rfl]
  cases OrderedMap.find? A g.table with
  | none => simp [addWord]
  | some ws => simp [addWord]

theorem alternatives_insert_of_ne (hB : B ≠ A) (w : Word) :
    (g.insert A w).alternatives B = g.alternatives B := by
  rw [alternatives_eq, alternatives_eq, table_insert, OrderedMap.find?_upsert, if_neg hB]

theorem ofProductions_concat (ps : List (NonTerminal × Word)) (A : NonTerminal) (w : Word) :
    ofProductions (ps ++ [(A, w)]) = (ofProductions ps).insert A w :=
  insertMany_append empty ps [(A, w)]

/-! ### Adding rules in order -/

/-- **Heads come in the order of their first rules.** -/
theorem heads_ofProductions (ps : List (NonTerminal × Word)) :
    (ofProductions ps).heads = (ps.map Prod.fst).eraseDups := by
  induction ps using List.reverseRec with
  | nil => rfl
  | append_singleton ps p ih =>
      obtain ⟨A, w⟩ := p
      rw [ofProductions_concat, heads_insert, ih, List.map_append, List.map_singleton,
        eraseDups_concat]
      simp only [List.mem_eraseDups]

/-- **Productions come in the order of first occurrence.** -/
theorem alternatives_ofProductions (ps : List (NonTerminal × Word)) (A : NonTerminal) :
    (ofProductions ps).alternatives A =
      ((ps.filter fun p => p.1 = A).map Prod.snd).eraseDups := by
  induction ps using List.reverseRec with
  | nil => rfl
  | append_singleton ps p ih =>
      obtain ⟨B, w⟩ := p
      rw [ofProductions_concat, List.filter_append, List.map_append]
      by_cases hB : B = A
      · subst hB
        rw [alternatives_insert_self, ih, List.filter_cons_of_pos (by simp), List.filter_nil,
          List.map_singleton, eraseDups_concat]
        simp only [List.mem_eraseDups]
      · rw [alternatives_insert_of_ne (Ne.symm hB), ih, List.filter_cons_of_neg (by simp [hB]),
          List.filter_nil, List.map_nil, List.append_nil]

/-! ### Gathering rules -/

theorem table_eq_map (g : Grammar) : g.table = g.heads.map fun A => (A, g.alternatives A) := by
  have hself : ∀ e ∈ g.table, (e.1, g.alternatives e.1) = id e := by
    intro e he
    have hkeys : (g.table.map Prod.fst).Nodup := map_fst_table g ▸ g.nodup_heads
    rw [alternatives_eq, OrderedMap.find?_eq_some_of_mem hkeys he]
    rfl
  rw [← map_fst_table, List.map_map]
  exact ((List.map_congr_left hself).trans (List.map_id _)).symm

theorem eq_of_order {h : Grammar} (hheads : g.heads = h.heads)
    (halternatives : ∀ A, g.alternatives A = h.alternatives A) : g = h := by
  refine table_injective ?_
  rw [table_eq_map, table_eq_map, hheads]
  exact List.map_congr_left fun A _ => congrArg (A, ·) (halternatives A)

theorem insertMany_eq_ofProductions (g : Grammar) (ps : List (NonTerminal × Word)) :
    g.insertMany ps = ofProductions (g.productions ++ ps) := by
  unfold ofProductions
  rw [insertMany_append, ← ofProductions, ofProductions_productions]

/-- **Rules may be gathered first**: adding those of a grammar, head by head, leads to the same heads
and productions in the same order as adding the rules that the grammar was built from. -/
theorem insertMany_productions_ofProductions (g : Grammar) (ps : List (NonTerminal × Word)) :
    g.insertMany (ofProductions ps).productions = g.insertMany ps := by
  rw [insertMany_eq_ofProductions, insertMany_eq_ofProductions]
  refine eq_of_order ?_ fun A => ?_
  · rw [heads_ofProductions, heads_ofProductions, List.map_append, List.map_append]
    refine eraseDups_append_congr ?_ _
    rw [← heads_ofProductions, ofProductions_productions, heads_ofProductions]
  · rw [alternatives_ofProductions, alternatives_ofProductions, List.filter_append,
      List.filter_append, List.map_append, List.map_append]
    refine eraseDups_append_congr ?_ _
    rw [← alternatives_ofProductions, ofProductions_productions, alternatives_ofProductions]

/-! ### Undefined non-terminals -/

theorem nodup_heads_append_undefined (g : Grammar) : (g.heads ++ g.undefined).Nodup := by
  refine g.nodup_heads.append (nodup_eraseDups _) ?_
  intro A hhead hundefined
  rw [undefined, List.mem_eraseDups, List.mem_filter, decide_eq_true_iff] at hundefined
  exact hundefined.2 hhead

end Grammar

end GrammarComparison
