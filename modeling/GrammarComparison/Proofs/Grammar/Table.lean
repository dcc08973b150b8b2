import GrammarComparison.Grammar

/-! # The table of a grammar

A grammar as the plain list of its heads with their productions, in order.  The table holds just the
rules (`produces_iff_table`) and is all that there is to a grammar (`table_injective`).
`table_insert` says what adding a rule does to the table, and `table_ofProductions` that the rules of
a table, added one after another, build just this table: nothing is merged and nothing changes its
place, if heads are different and the productions of each are too.  So a grammar is built by its own
rules (`ofProductions_productions`). -/

namespace GrammarComparison.Grammar

variable {g : Grammar} {A : NonTerminal} {w : Word}

/-- The heads with their productions, in order. -/
def table (g : Grammar) : List (NonTerminal × List Word) :=
  g.rules.entries.map fun e => (e.1, e.2.words)

/-- Adds a production to those of a head that may have none so far, unless it is among them. -/
def addWord (w : Word) : Option (List Word) → List Word
  | none => [w]
  | some ws => if ws.contains w then ws else ws ++ [w]

/-- The rules of a table as pairs of a head and a production. -/
def rulesOf (t : List (NonTerminal × List Word)) : List (NonTerminal × Word) :=
  t.flatMap fun e => e.2.map (e.1, ·)

/-! ### Reading the table -/

theorem map_fst_table (g : Grammar) : g.table.map Prod.fst = g.heads := by
  unfold table heads OrderedMap.keys
  rw [List.map_map]
  rfl

theorem nodup_heads (g : Grammar) : g.heads.Nodup := g.rules.nodup_keys

theorem productions_eq (g : Grammar) : g.productions = rulesOf g.table := by
  unfold productions rulesOf table
  rw [List.flatMap_map]

theorem alternatives_eq (g : Grammar) (A : NonTerminal) :
    g.alternatives A = (OrderedMap.find? A g.table).getD [] := by
  unfold alternatives alternatives? OrderedMap.get? table
  have hfind : OrderedMap.find? A (g.rules.entries.map fun e => (id e.1, e.2.words)) =
      (OrderedMap.find? A g.rules.entries).map Alternatives.words :=
    OrderedMap.find?_map (fun _ _ h => h) Alternatives.words
  rw [← hfind]
  rfl

theorem mem_table {e : NonTerminal × List Word} (h : e ∈ g.table) : e.2 ≠ [] ∧ e.2.Nodup := by
  obtain ⟨⟨B, as⟩, _, rfl⟩ := List.mem_map.mp h
  exact ⟨as.ne_nil, as.nodup⟩

theorem produces_iff_table : g.Produces A w ↔ ∃ ws, (A, ws) ∈ g.table ∧ w ∈ ws := by
  rw [← mem_productions_iff, productions_eq, rulesOf, List.mem_flatMap]
  constructor
  · rintro ⟨⟨B, ws⟩, he, hw⟩
    obtain ⟨v, hv, heq⟩ := List.mem_map.mp hw
    obtain ⟨rfl, rfl⟩ := Prod.mk.inj heq
    exact ⟨ws, he, hv⟩
  · rintro ⟨ws, he, hw⟩
    exact ⟨(A, ws), he, List.mem_map.mpr ⟨w, hw, rfl⟩⟩

theorem mem_heads_iff : A ∈ g.heads ↔ ∃ w, g.Produces A w := by
  simp only [produces_iff_table]
  rw [← map_fst_table]
  constructor
  · intro h
    obtain ⟨⟨B, ws⟩, he, rfl⟩ := List.mem_map.mp h
    obtain ⟨w, hw⟩ := List.exists_mem_of_ne_nil ws (mem_table he).1
    exact ⟨w, ws, he, hw⟩
  · rintro ⟨w, ws, he, _⟩
    exact List.mem_map.mpr ⟨(A, ws), he, rfl⟩

theorem forall_produces_iff {P : NonTerminal → Word → Prop} :
    (∀ A w, g.Produces A w → P A w) ↔ ∀ p ∈ g.productions, P p.1 p.2 := by
  constructor
  · intro h p hp
    exact h p.1 p.2 (mem_productions_iff.mp hp)
  · intro h A w hw
    exact h (A, w) (mem_productions_iff.mpr hw)

/-- The table is all that there is to a grammar. -/
theorem table_injective {h : Grammar} (e : g.table = h.table) : g = h := by
  refine ext_entries ((List.map_inj_right ?_).mp e)
  rintro ⟨A, as⟩ ⟨B, bs⟩ heq
  obtain ⟨rfl, hwords⟩ := Prod.mk.inj heq
  obtain ⟨us, _, _⟩ := as
  obtain ⟨vs, _, _⟩ := bs
  obtain rfl : us = vs := hwords
  rfl

/-! ### Building a table -/

theorem words_extend (w : Word) (o : Option Alternatives) :
    (Alternatives.extend w o).words = addWord w (o.map Alternatives.words) := by
  cases o with
  | none => rfl
  | some as =>
      simp only [Alternatives.extend, Alternatives.insert, Option.map_some, addWord,
        List.contains_iff_mem]
      split <;> rfl

theorem table_insert (g : Grammar) (A : NonTerminal) (w : Word) :
    (g.insert A w).table = OrderedMap.upsert A (addWord w) g.table := by
  unfold table insert OrderedMap.update
  dsimp only
  induction g.rules.entries with
  | nil => simp [OrderedMap.upsert, words_extend]
  | cons e es ih =>
      by_cases h : e.1 = A
      · simp [OrderedMap.upsert, h, words_extend]
      · simpa [OrderedMap.upsert, h] using ih

theorem insertMany_append (g : Grammar) (ps qs : List (NonTerminal × Word)) :
    g.insertMany (ps ++ qs) = (g.insertMany ps).insertMany qs :=
  List.foldl_append

theorem table_insertMany_last {t : List (NonTerminal × List Word)} {us ws : List Word}
    (hg : g.table = t ++ [(A, us)]) (hA : A ∉ t.map Prod.fst) (hws : (us ++ ws).Nodup) :
    (g.insertMany (ws.map (A, ·))).table = t ++ [(A, us ++ ws)] := by
  induction ws generalizing g us with
  | nil => simpa [insertMany] using hg
  | cons w ws ih =>
      have hw : w ∉ us := by
        intro hmem
        exact (List.nodup_append.mp hws).2.2 w hmem w List.mem_cons_self rfl
      have hstep : (g.insert A w).table = t ++ [(A, us ++ [w])] := by
        rw [table_insert, hg, OrderedMap.upsert_append hA]
        simp [OrderedMap.upsert, addWord, hw]
      have hrest := ih hstep (by simpa using hws)
      simpa [insertMany] using hrest

theorem table_insertMany_new {ws : List Word} (hA : A ∉ g.heads) (hne : ws ≠ []) (hws : ws.Nodup) :
    (g.insertMany (ws.map (A, ·))).table = g.table ++ [(A, ws)] := by
  rw [← map_fst_table] at hA
  cases ws with
  | nil => exact absurd rfl hne
  | cons w ws =>
      have hstep : (g.insert A w).table = g.table ++ [(A, [w])] := by
        have hlast := OrderedMap.upsert_append hA (addWord w) []
        rw [List.append_nil] at hlast
        rw [table_insert, hlast]
        rfl
      exact table_insertMany_last hstep hA hws

theorem table_insertMany {t : List (NonTerminal × List Word)}
    (hkeys : (g.heads ++ t.map Prod.fst).Nodup) (ht : ∀ e ∈ t, e.2 ≠ [] ∧ e.2.Nodup) :
    (g.insertMany (rulesOf t)).table = g.table ++ t := by
  induction t generalizing g with
  | nil => simp [rulesOf, insertMany]
  | cons e t ih =>
      obtain ⟨A, ws⟩ := e
      obtain ⟨hne, hws⟩ := ht (A, ws) List.mem_cons_self
      have hA : A ∉ g.heads := by
        intro hmem
        exact (List.nodup_append.mp hkeys).2.2 A hmem A List.mem_cons_self rfl
      have hhead := table_insertMany_new hA hne hws
      have hheads : (g.insertMany (ws.map (A, ·))).heads = g.heads ++ [A] := by
        rw [← map_fst_table, hhead, List.map_append, map_fst_table]
        rfl
      have hrules : rulesOf ((A, ws) :: t) = ws.map (A, ·) ++ rulesOf t := List.flatMap_cons
      rw [hrules, insertMany_append, ih ?_ (fun e he => ht e (List.mem_cons_of_mem _ he)), hhead,
        List.append_assoc]
      · rfl
      · rw [hheads, List.append_assoc]
        exact hkeys

/-- **A table is built as it stands**: its rules, added in order, give its heads and productions in
order. -/
theorem table_ofProductions {t : List (NonTerminal × List Word)} (hkeys : (t.map Prod.fst).Nodup)
    (ht : ∀ e ∈ t, e.2 ≠ [] ∧ e.2.Nodup) : (ofProductions (rulesOf t)).table = t := by
  have hnew : (empty.heads ++ t.map Prod.fst).Nodup := hkeys
  unfold ofProductions
  rw [table_insertMany hnew ht]
  rfl

theorem ofProductions_productions (g : Grammar) : ofProductions g.productions = g := by
  have hkeys : (g.table.map Prod.fst).Nodup := map_fst_table g ▸ nodup_heads g
  rw [productions_eq]
  exact table_injective (table_ofProductions hkeys fun _ he => mem_table he)

end GrammarComparison.Grammar
