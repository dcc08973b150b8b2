/-! # Maps that remember insertion order

A finite map whose keys keep the order in which they first appeared: giving a key again changes its
value and not its place.  Rule sets, renamings and counts all have this shape.

`keys_update` and `get?_update` say what `update` does to the two views of a map. -/

namespace GrammarComparison

/-- A finite map from `κ` to `ν` whose keys keep the order of their first insertion. -/
structure OrderedMap (κ ν : Type) where
  entries : List (κ × ν)
  nodup_keys : (entries.map Prod.fst).Nodup
  deriving DecidableEq

namespace OrderedMap

variable {κ ν : Type}

@[ext]
theorem ext {m n : OrderedMap κ ν} (h : m.entries = n.entries) : m = n := by
  cases m; cases n; cases h; rfl

/-- The map without keys. -/
def empty : OrderedMap κ ν := ⟨[], List.nodup_nil⟩

/-- The keys in insertion order. -/
def keys (m : OrderedMap κ ν) : List κ := m.entries.map Prod.fst

/-! ### Values and updates -/

variable [DecidableEq κ]

/-- The value under the key `k` in a list of entries. -/
def find? (k : κ) : List (κ × ν) → Option ν
  | [] => none
  | (j, v) :: es => if j = k then some v else find? k es

/-- The value under the key `k`. -/
def get? (m : OrderedMap κ ν) (k : κ) : Option ν := find? k m.entries

/-- The entries with the value under `k` replaced by what `f` makes of it; a new key comes last. -/
def upsert (k : κ) (f : Option ν → ν) : List (κ × ν) → List (κ × ν)
  | [] => [(k, f none)]
  | (j, v) :: es => if j = k then (j, f (some v)) :: es else (j, v) :: upsert k f es

theorem map_fst_upsert (k : κ) (f : Option ν → ν) (es : List (κ × ν)) :
    (upsert k f es).map Prod.fst =
      if k ∈ es.map Prod.fst then es.map Prod.fst else es.map Prod.fst ++ [k] := by
  induction es with
  | nil => simp [upsert]
  | cons e es ih =>
    obtain ⟨j, v⟩ := e
    by_cases h : j = k
    · simp [upsert, h]
    · have h' : k ≠ j := fun hk => h hk.symm
      simp only [upsert, h, if_false, List.map_cons, ih, List.mem_cons, h', false_or]
      split <;> simp

theorem nodup_upsert {k : κ} {f : Option ν → ν} {es : List (κ × ν)}
    (h : (es.map Prod.fst).Nodup) : ((upsert k f es).map Prod.fst).Nodup := by
  rw [map_fst_upsert]
  split
  · exact h
  · rename_i hk
    refine List.nodup_append.mpr ⟨h, by simp, ?_⟩
    intro a ha b hb hab
    rw [List.mem_singleton.mp hb] at hab
    exact hk (hab ▸ ha)

/-- The map with the value under `k` replaced by what `f` makes of it; a new key comes last. -/
def update (m : OrderedMap κ ν) (k : κ) (f : Option ν → ν) : OrderedMap κ ν :=
  ⟨upsert k f m.entries, nodup_upsert m.nodup_keys⟩

/-- The map with `v` under `k`. -/
def insert (m : OrderedMap κ ν) (k : κ) (v : ν) : OrderedMap κ ν := m.update k fun _ => v

/-- The map of the given entries, in order; a later entry for a key replaces its value. -/
def ofList (es : List (κ × ν)) : OrderedMap κ ν := es.foldl (fun m e => m.insert e.1 e.2) empty

/-- Two maps agree if they have the same value under every key, whatever their order. -/
def Agrees (m n : OrderedMap κ ν) : Prop := ∀ k, m.get? k = n.get? k

/-! ### What an update does -/

@[simp]
theorem get?_empty (k : κ) : (empty : OrderedMap κ ν).get? k = none := rfl

theorem keys_update (m : OrderedMap κ ν) (k : κ) (f : Option ν → ν) :
    (m.update k f).keys = if k ∈ m.keys then m.keys else m.keys ++ [k] :=
  map_fst_upsert k f m.entries

theorem find?_upsert (k j : κ) (f : Option ν → ν) (es : List (κ × ν)) :
    find? j (upsert k f es) = if j = k then some (f (find? k es)) else find? j es := by
  induction es with
  | nil => by_cases h : k = j <;> simp [upsert, find?, h, eq_comm]
  | cons e es ih =>
    obtain ⟨i, v⟩ := e
    by_cases hik : i = k
    · subst hik
      by_cases hij : i = j
      · simp [upsert, find?, hij]
      · simp [upsert, find?, hij, Ne.symm hij]
    · by_cases hij : i = j
      · subst hij; simp [upsert, find?, hik]
      · simp [upsert, find?, hik, hij, ih]

theorem get?_update (m : OrderedMap κ ν) (k j : κ) (f : Option ν → ν) :
    (m.update k f).get? j = if j = k then some (f (m.get? k)) else m.get? j :=
  find?_upsert k j f m.entries

theorem get?_insert (m : OrderedMap κ ν) (k j : κ) (v : ν) :
    (m.insert k v).get? j = if j = k then some v else m.get? j :=
  get?_update m k j _

/-- An entry after a replacement was there before, or is what came under `k`. -/
theorem mem_upsert {k : κ} {f : Option ν → ν} {es : List (κ × ν)} {e : κ × ν}
    (h : e ∈ upsert k f es) : e ∈ es ∨ e = (k, f (find? k es)) := by
  induction es with
  | nil => exact .inr (List.mem_singleton.mp h)
  | cons e' es ih =>
    obtain ⟨j, v⟩ := e'
    by_cases hj : j = k
    · simp only [upsert, hj, if_true, List.mem_cons] at h
      simp only [find?, hj, if_true, List.mem_cons]
      rcases h with heq | hmem
      · exact .inr heq
      · exact .inl (.inr hmem)
    · simp only [upsert, hj, if_false, List.mem_cons] at h
      simp only [find?, hj, if_false, List.mem_cons]
      rcases h with heq | hmem
      · exact .inl (.inl heq)
      · exact (ih hmem).imp .inr id

theorem find?_eq_none_iff {k : κ} {es : List (κ × ν)} :
    find? k es = none ↔ k ∉ es.map Prod.fst := by
  induction es with
  | nil => simp [find?]
  | cons e es ih =>
    obtain ⟨j, v⟩ := e
    by_cases h : j = k
    · simp [find?, h]
    · simpa [find?, h, Ne.symm h] using ih

theorem upsert_append {k : κ} {es : List (κ × ν)} (h : k ∉ es.map Prod.fst) (f : Option ν → ν)
    (fs : List (κ × ν)) : upsert k f (es ++ fs) = es ++ upsert k f fs := by
  induction es with
  | nil => rfl
  | cons e es ih =>
    rw [List.map_cons, List.mem_cons, not_or] at h
    simp only [List.cons_append, upsert, Ne.symm h.1, if_false, ih h.2]

theorem find?_map {ι μ : Type} [DecidableEq ι] {ρ : κ → ι} {k : κ} {es : List (κ × ν)}
    (h : ∀ j ∈ es.map Prod.fst, ρ j = ρ k → j = k) (φ : ν → μ) :
    find? (ρ k) (es.map fun e => (ρ e.1, φ e.2)) = (find? k es).map φ := by
  induction es with
  | nil => rfl
  | cons e es ih =>
    obtain ⟨j, v⟩ := e
    rw [List.map_cons, List.forall_mem_cons] at h
    by_cases hj : j = k
    · simp [find?, hj]
    · have hne : ρ j ≠ ρ k := fun heq => hj (h.1 heq)
      simp only [List.map_cons, find?, hne, hj, if_false, ih h.2]

theorem find?_eq_some_of_mem {k : κ} {v : ν} {es : List (κ × ν)} (hes : (es.map Prod.fst).Nodup)
    (h : (k, v) ∈ es) : find? k es = some v := by
  induction es with
  | nil => simp at h
  | cons e es ih =>
    obtain ⟨j, u⟩ := e
    obtain ⟨hj, hes'⟩ := List.nodup_cons.mp hes
    rcases List.mem_cons.mp h with heq | hmem
    · obtain ⟨rfl, rfl⟩ := Prod.mk.inj heq
      simp [find?]
    · have hne : j ≠ k := by
        rintro rfl
        exact hj (List.mem_map.mpr ⟨(j, v), hmem, rfl⟩)
      simp only [find?, hne, if_false, ih hes' hmem]

theorem mem_of_find?_eq_some {k : κ} {v : ν} {es : List (κ × ν)} (h : find? k es = some v) :
    (k, v) ∈ es := by
  induction es with
  | nil => cases h
  | cons e es ih =>
    obtain ⟨j, u⟩ := e
    rw [find?] at h
    split at h
    · rename_i hj
      rw [hj, Option.some.inj h]
      exact List.mem_cons_self
    · exact List.mem_cons_of_mem _ (ih h)

theorem entries_foldl_insert {m : OrderedMap κ ν} {es : List (κ × ν)}
    (h : (m.keys ++ es.map Prod.fst).Nodup) :
    (es.foldl (fun m e => m.insert e.1 e.2) m).entries = m.entries ++ es := by
  induction es generalizing m with
  | nil => simp
  | cons e es ih =>
    obtain ⟨k, v⟩ := e
    have hk : k ∉ m.entries.map Prod.fst := by
      intro hmem
      exact (List.nodup_append.mp h).2.2 k hmem k List.mem_cons_self rfl
    have hentries : (m.insert k v).entries = m.entries ++ [(k, v)] := by
      have hlast := upsert_append hk (fun _ => v) []
      rw [List.append_nil] at hlast
      exact hlast
    have hkeys : (m.insert k v).keys = m.keys ++ [k] := by
      rw [keys, hentries, List.map_append]
      rfl
    rw [List.foldl_cons, ih, hentries, List.append_assoc]
    · rfl
    · rw [hkeys, List.append_assoc]
      exact h

theorem entries_ofList {es : List (κ × ν)} (h : (es.map Prod.fst).Nodup) :
    (ofList es).entries = es := by
  rw [ofList, entries_foldl_insert]
  · rfl
  · exact h

theorem get?_foldl_insert (m : OrderedMap κ ν) (f : κ → ν) (ks : List κ) (k : κ) :
    ((ks.map fun j => (j, f j)).foldl (fun m e => m.insert e.1 e.2) m).get? k =
      if k ∈ ks then some (f k) else m.get? k := by
  induction ks generalizing m with
  | nil => simp
  | cons j ks ih =>
    rw [List.map_cons, List.foldl_cons, ih, get?_insert]
    by_cases hk : k ∈ ks
    · simp [hk]
    · by_cases hj : k = j
      · simp [hj]
      · simp [hk, hj]

/-- Entries whose values are given by their keys are found, however often a key is repeated. -/
theorem get?_ofList_map (f : κ → ν) (ks : List κ) (k : κ) :
    (ofList (ks.map fun j => (j, f j))).get? k = if k ∈ ks then some (f k) else none := by
  rw [ofList, get?_foldl_insert, get?_empty]

theorem get?_eq_none_iff {m : OrderedMap κ ν} {k : κ} : m.get? k = none ↔ k ∉ m.keys :=
  find?_eq_none_iff

/-! ### Agreement -/

theorem agrees_iff {m n : OrderedMap κ ν} :
    m.Agrees n ↔ ∀ k ∈ m.keys ++ n.keys, m.get? k = n.get? k := by
  refine ⟨fun h k _ => h k, fun h k => ?_⟩
  by_cases hk : k ∈ m.keys ++ n.keys
  · exact h k hk
  · rw [List.mem_append, not_or] at hk
    rw [get?_eq_none_iff.mpr hk.1, get?_eq_none_iff.mpr hk.2]

instance [DecidableEq ν] (m n : OrderedMap κ ν) : Decidable (m.Agrees n) :=
  decidable_of_iff _ agrees_iff.symm

end OrderedMap

end GrammarComparison
