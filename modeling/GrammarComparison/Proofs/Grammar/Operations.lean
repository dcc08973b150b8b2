import GrammarComparison.Proofs.Grammar.FirstOccurrence
import GrammarComparison.Proofs.Grammar.RoundTrip
import GrammarComparison.Proofs.Shape.Invariance

/-! # Grammars under operations

What stays true of a grammar whatever is done to it: rules are added to it, it is renamed, it is printed
and read back, another text is read, in any order and any number of times (`Operation.run`).

What a grammar has come to is set against the plain list of the rules that it was given since it was
last built anew (`Operation.given`), repetitions included, and against the plain table that these rules
are entered in one by one (`enter`).  Nothing about this table is assumed; that its heads differ, that
none is without production and that no production comes twice is kept by each entry
(`WellFormed.enterRule`).  An operation leads from the grammar of one list to the grammar of the next
(`Operation.perform_ofProductions`), so every run does (`Operation.run_eq`), and the table of the grammar
is the plain one (`table_eq_enter`).

Heads and productions stand in the order in which they were first given, and undefined non-terminals in
the order in which the productions first use them (`InOrderOf`).  An added rule comes after the others of
its head and is the only change (`addsRule_add`).  `run_keeps_rules_in_order` says all of this of the
grammar that any run leads to. -/

namespace GrammarComparison

/-! ### Order of first appearance -/

/-- The elements of `xs` are elements of `ys`, and they come in the order in which they first appear
there, each once. -/
structure InOrderOf {α : Type} [BEq α] (xs ys : List α) : Prop where
  subset : xs ⊆ ys
  increasing : xs.Pairwise fun x y => ys.idxOf x < ys.idxOf y

namespace InOrderOf

variable {α : Type} [BEq α] [LawfulBEq α] {xs ys : List α} {x : α}

theorem append (h : InOrderOf xs ys) (zs : List α) : InOrderOf xs (ys ++ zs) where
  subset := List.subset_append_of_subset_left zs h.subset
  increasing := by
    refine h.increasing.imp_of_mem fun hx hy hlt => ?_
    rwa [List.idxOf_append_of_mem (h.subset hx), List.idxOf_append_of_mem (h.subset hy)]

theorem concat (h : InOrderOf xs ys) (hx : x ∉ ys) : InOrderOf (xs ++ [x]) (ys ++ [x]) where
  subset := by
    intro y hy
    rcases List.mem_append.mp hy with hy | hy
    · exact List.mem_append_left _ (h.subset hy)
    · exact List.mem_append_right _ hy
  increasing := by
    refine List.pairwise_append.mpr ⟨(h.append [x]).increasing, List.pairwise_singleton _ _, ?_⟩
    intro y hy z hz
    have hlast : (ys ++ [x]).idxOf x = ys.length := by
      rw [List.idxOf_append_of_notMem hx, List.idxOf_cons_self, Nat.add_zero]
    rw [List.mem_singleton.mp hz, hlast, List.idxOf_append_of_mem (h.subset hy)]
    exact List.idxOf_lt_length_of_mem (h.subset hy)

end InOrderOf

theorem inOrderOf_eraseDups_filter {α : Type} [BEq α] [LawfulBEq α] (p : α → Bool) (xs : List α) :
    InOrderOf (xs.filter p).eraseDups xs := by
  -- from the end, as what comes last does not change where the others first appear
  induction xs using List.reverseRec with
  | nil => exact ⟨List.nil_subset _, List.Pairwise.nil⟩
  | append_singleton xs x ih =>
      rw [List.filter_append]
      by_cases hp : p x = true
      · rw [List.filter_cons_of_pos hp, List.filter_nil, eraseDups_concat]
        split
        · exact ih.append [x]
        · rename_i hx
          exact ih.concat fun hmem => hx (List.mem_filter.mpr ⟨hmem, hp⟩)
      · rw [List.filter_cons_of_neg hp, List.filter_nil, List.append_nil]
        exact ih.append [x]

theorem inOrderOf_eraseDups {α : Type} [BEq α] [LawfulBEq α] (xs : List α) :
    InOrderOf xs.eraseDups xs := by
  simpa using inOrderOf_eraseDups_filter (fun _ => true) xs

namespace Grammar

variable {w : Word} {t : List (NonTerminal × List Word)}

/-! ### Plain tables -/

/-- Enters a rule in a table: as the last production of its head, unless it is there; a new head comes
last. -/
def enterRule (t : List (NonTerminal × List Word)) (p : NonTerminal × Word) :
    List (NonTerminal × List Word) :=
  OrderedMap.upsert p.1 (addWord p.2) t

/-- The table of the given rules, entered one by one. -/
def enter (ps : List (NonTerminal × Word)) : List (NonTerminal × List Word) := ps.foldl enterRule []

/-- Heads differ, each has productions, and these differ. -/
structure WellFormed (t : List (NonTerminal × List Word)) : Prop where
  heads : (t.map Prod.fst).Nodup
  nonempty : ∀ e ∈ t, e.2 ≠ []
  productions : ∀ e ∈ t, e.2.Nodup

theorem addWord_some (w : Word) (ws : List Word) :
    addWord w (some ws) = if w ∈ ws then ws else ws ++ [w] := by
  simp [addWord]

theorem addWord_ne_nil {o : Option (List Word)} (h : ∀ ws ∈ o, ws ≠ []) : addWord w o ≠ [] := by
  cases o with
  | none => exact List.cons_ne_nil w []
  | some ws =>
      rw [addWord_some]
      split
      · exact h ws rfl
      · exact List.concat_ne_nil w ws

theorem nodup_addWord {o : Option (List Word)} (h : ∀ ws ∈ o, ws.Nodup) : (addWord w o).Nodup := by
  cases o with
  | none => exact List.nodup_singleton w
  | some ws =>
      rw [addWord_some]
      split
      · exact h ws rfl
      · rename_i hw
        rw [← List.concat_eq_append]
        exact (h ws rfl).concat hw

/-- **One entry keeps a table well formed.** -/
theorem WellFormed.enterRule (h : WellFormed t) (p : NonTerminal × Word) :
    WellFormed (enterRule t p) := by
  -- the productions that the head has so far, if any, are a row of the table
  have hrow : ∀ ws ∈ OrderedMap.find? p.1 t, (p.1, ws) ∈ t := fun ws hws =>
    OrderedMap.mem_of_find?_eq_some hws
  refine ⟨OrderedMap.nodup_upsert h.heads, fun e he => ?_, fun e he => ?_⟩
  · rcases OrderedMap.mem_upsert he with hold | rfl
    · exact h.nonempty e hold
    · exact addWord_ne_nil fun ws hws => h.nonempty _ (hrow ws hws)
  · rcases OrderedMap.mem_upsert he with hold | rfl
    · exact h.productions e hold
    · exact nodup_addWord fun ws hws => h.productions _ (hrow ws hws)

theorem wellFormed_enter (ps : List (NonTerminal × Word)) : WellFormed (enter ps) := by
  induction ps using List.reverseRec with
  | nil => exact ⟨List.nodup_nil, List.forall_mem_nil _, List.forall_mem_nil _⟩
  | append_singleton ps p ih =>
      rw [enter, List.foldl_concat]
      exact ih.enterRule p

theorem table_eq_enter (ps : List (NonTerminal × Word)) : (ofProductions ps).table = enter ps := by
  induction ps using List.reverseRec with
  | nil => rfl
  | append_singleton ps p ih =>
      rw [ofProductions_concat, table_insert, ih, enter, enter, List.foldl_concat]
      rfl

/-! ### Operations -/

/-- What may be done with a grammar: read a text in its place, add a rule, rename it, or print it and
read it back. -/
inductive Operation where
  | read (text : String)
  | add (A : NonTerminal) (w : Word)
  | rename (m : Renaming)
  | reread

namespace Operation

/-- The grammar after an operation. -/
def perform (g : Grammar) : Operation → Grammar
  | read text => parse text
  | add A w => (g.add A w).2
  | rename m => m.apply g
  | reread => parse g.render

/-- The grammar after the given operations.  At first there are no rules; a run that starts from the
grammar of a text has `read` as its first operation. -/
def run (os : List Operation) : Grammar := os.foldl perform empty

/-- The rules given so far, after an operation.  Renaming goes through the table that the rules are
entered in, head by head, and so does printing. -/
def give (ps : List (NonTerminal × Word)) : Operation → List (NonTerminal × Word)
  | read text => RuleText.productions text.toList
  | add A w => ps ++ [(A, w)]
  | rename m => (rulesOf (enter ps)).map fun p => (m.rename p.1, m.renameWord p.2)
  | reread => RuleText.productions (((enter ps).map Grammar.printLine).flatMap (· ++ ['\n']))

/-- The rules that a run gives, in order, since the grammar was last built anew. -/
def given (os : List Operation) : List (NonTerminal × Word) := os.foldl give []

/-- One operation leads from the grammar of the rules given so far to that of the rules given then. -/
theorem perform_ofProductions (ps : List (NonTerminal × Word)) (o : Operation) :
    perform (ofProductions ps) o = ofProductions (give ps o) := by
  cases o with
  | read text => rfl
  | add A w =>
      rw [perform, add_eq, give, ofProductions_concat]
  | rename m =>
      rw [perform, Renaming.apply, productions_eq, table_eq_enter, give]
  | reread =>
      rw [perform, parse, toList_render, table_eq_enter, give]

/-- **A run leads to the grammar of the rules that it gives.** -/
theorem run_eq (os : List Operation) : run os = ofProductions (given os) := by
  induction os using List.reverseRec with
  | nil => rfl
  | append_singleton os o ih =>
      rw [run, List.foldl_concat, ← run, ih, perform_ofProductions, given, given, List.foldl_concat]

end Operation

/-! ### Adding a rule -/

/-- Adding `A → w` to `g` leads to `h`, and `isNew` says whether there was anything to add: the rules of
`h` are those of `g` and `A → w`, and what `g` has keeps its order.  Heads and productions of a head that
come in addition come last. -/
structure AddsRule (g : Grammar) (A : NonTerminal) (w : Word) (isNew : Bool) (h : Grammar) : Prop where
  isNew_iff : isNew = true ↔ ¬ g.Produces A w
  produces_iff : ∀ B v, h.Produces B v ↔ (B = A ∧ v = w) ∨ g.Produces B v
  heads : g.heads <+: h.heads
  alternatives : ∀ B, g.alternatives B <+: h.alternatives B
  productions : g.productions.Sublist h.productions

theorem sublist_addWord (w : Word) (ws : List Word) : ws.Sublist (addWord w (some ws)) := by
  rw [addWord_some]
  split
  · exact List.Sublist.refl ws
  · exact List.sublist_append_left ws [w]

theorem sublist_rulesOf_enterRule (t : List (NonTerminal × List Word)) (p : NonTerminal × Word) :
    (rulesOf t).Sublist (rulesOf (enterRule t p)) := by
  induction t with
  | nil => exact List.nil_sublist _
  | cons e t ih =>
      obtain ⟨B, ws⟩ := e
      unfold enterRule rulesOf at *
      by_cases hB : B = p.1
      · rw [OrderedMap.upsert, if_pos hB, List.flatMap_cons, List.flatMap_cons]
        exact ((sublist_addWord p.2 ws).map _).append (List.Sublist.refl _)
      · rw [OrderedMap.upsert, if_neg hB, List.flatMap_cons, List.flatMap_cons]
        exact (List.Sublist.refl _).append ih

theorem addsRule_add (g : Grammar) (A : NonTerminal) (w : Word) :
    AddsRule g A w (g.add A w).1 (g.add A w).2 := by
  rw [add_eq]
  refine ⟨decide_eq_true_iff, fun B v => produces_insert, ?_, fun B => ?_, ?_⟩
  · rw [heads_insert]
    split
    · exact List.prefix_refl _
    · exact List.prefix_append _ _
  · by_cases hB : B = A
    · rw [hB, alternatives_insert_self]
      split
      · exact List.prefix_refl _
      · exact List.prefix_append _ _
    · exact (alternatives_insert_of_ne hB w).symm ▸ List.prefix_refl _
  · rw [productions_eq, productions_eq, table_insert]
    exact sublist_rulesOf_enterRule g.table (A, w)

/-! ### Heads and undefined non-terminals -/

/-- The two lists of non-terminals of `g` share nothing and repeat nothing; together they name the heads
of the rules and what productions use, and the second is in order of first use. -/
structure DividesNonTerminals (g : Grammar) : Prop where
  once : (g.heads ++ g.undefined).Nodup
  mem_iff : ∀ A, A ∈ g.heads ++ g.undefined ↔ ∃ B w, g.Produces B w ∧ (A = B ∨ A ∈ w.nonTerminals)
  heads : InOrderOf g.heads (g.productions.map Prod.fst)
  undefined : InOrderOf g.undefined (g.productions.flatMap fun p => p.2.nonTerminals)

theorem heads_eq_eraseDups (g : Grammar) : g.heads = (g.productions.map Prod.fst).eraseDups := by
  rw [← heads_ofProductions, ofProductions_productions]

theorem dividesNonTerminals (g : Grammar) : DividesNonTerminals g where
  once := g.nodup_heads_append_undefined
  mem_iff _ := mem_heads_append_undefined_iff.trans mem_mentioned_iff
  heads := g.heads_eq_eraseDups ▸ inOrderOf_eraseDups _
  undefined := inOrderOf_eraseDups_filter _ _

/-! ### Whatever is done -/

/-- **Whatever is done to a grammar, its rules stay in order**: its table is the plain table of the rules
that it was given. -/
theorem run_keeps_rules_in_order (os : List Operation) :
    let g := Operation.run os
    let ps := Operation.given os
    (g.table = enter ps ∧ WellFormed (enter ps) ∧ InOrderOf g.heads (ps.map Prod.fst) ∧
      ∀ A, InOrderOf (g.alternatives A) ((ps.filter fun p => p.1 = A).map Prod.snd)) ∧
    (∀ A w, AddsRule g A w (g.add A w).1 (g.add A w).2) ∧ DividesNonTerminals g := by
  intro g ps
  have hrun : g = ofProductions ps := Operation.run_eq os
  refine ⟨⟨?_, wellFormed_enter ps, ?_, fun A => ?_⟩, addsRule_add g, dividesNonTerminals g⟩
  · rw [hrun, table_eq_enter]
  · rw [hrun, heads_ofProductions]
    exact inOrderOf_eraseDups _
  · rw [hrun, alternatives_ofProductions]
    exact inOrderOf_eraseDups _

/-- Heads that are sent to one non-terminal are merged head by head, not in the order in which their
rules were given. -/
example :
    (Operation.run [.add ⟨'S'⟩ [.terminal 'a'], .add ⟨'A'⟩ [.terminal 'b'], .add ⟨'S'⟩ [.terminal 'c'],
      .rename (.ofPairs [(⟨'A'⟩, ⟨'S'⟩)])]).alternatives ⟨'S'⟩ =
        [[.terminal 'a'], [.terminal 'c'], [.terminal 'b']] := by decide +kernel

end Grammar

end GrammarComparison
