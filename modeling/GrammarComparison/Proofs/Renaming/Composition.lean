import GrammarComparison.Proofs.Grammar.FirstOccurrence
import GrammarComparison.Proofs.Renaming.Invariance

/-! # Renamings one after another

What a renaming does to a grammar depends only on where it sends the non-terminals of the grammar
(`apply_congr`).  A renaming that leaves them where they are gives the grammar back, heads and
productions in order (`apply_eq_self`).  Two renamings, one after the other, have the effect of one
that sends each non-terminal where the second sends what the first has made of it (`andThen`).  The two
ways lead to the same rules (`sameRules_andThen`) and, unless the first renaming merges heads, to the
same order (`apply_apply_of_injectiveOn`).  So a renaming that merges nothing can be undone
(`apply_undo`). -/

namespace GrammarComparison

namespace Renaming

variable {m n : Renaming} {g : Grammar} {A B : NonTerminal} {w : Word}

/-! ### Where non-terminals are sent -/

theorem rename_of_get? (h : m.get? A = some B) : m.rename A = B := by
  unfold rename
  rw [h]
  rfl

theorem get?_of_mem_keys (h : A ∈ m.targets.keys) : m.get? A = some (m.rename A) := by
  cases hget : m.get? A with
  | none => exact absurd h (OrderedMap.get?_eq_none_iff.mp hget)
  | some B => rw [rename_of_get? hget]

theorem mem_keys_of_get? (h : m.get? A = some B) : A ∈ m.targets.keys := by
  by_contra hA
  have hnone : m.get? A = none := OrderedMap.get?_eq_none_iff.mpr hA
  rw [hnone] at h
  simp at h

theorem rename_of_not_mem_keys (h : A ∉ m.targets.keys) : m.rename A = A := by
  have hnone : m.get? A = none := OrderedMap.get?_eq_none_iff.mpr h
  unfold rename
  rw [hnone]
  rfl

theorem renameWord_congr (h : ∀ A ∈ w.nonTerminals, m.rename A = n.rename A) :
    m.renameWord w = n.renameWord w := by
  refine List.map_congr_left fun s hs => ?_
  cases s with
  | nonTerminal A => exact congrArg Symbol.nonTerminal (h A (List.mem_filterMap.mpr ⟨_, hs, rfl⟩))
  | terminal c => rfl
  | marker => rfl

/-- What a renaming does to a grammar depends only on where it sends the non-terminals of the
grammar. -/
theorem apply_congr (h : ∀ A ∈ g.mentioned, m.rename A = n.rename A) : m.apply g = n.apply g := by
  unfold apply
  refine congrArg Grammar.ofProductions (List.map_congr_left ?_)
  rintro ⟨A, w⟩ hp
  have hproduces := Grammar.mem_productions_iff.mp hp
  have hhead := Grammar.mem_mentioned_of_head (Grammar.mem_heads_iff.mpr ⟨w, hproduces⟩)
  have hword := renameWord_congr fun B hB => h B (Grammar.over_of_produces hproduces B hB)
  exact Prod.ext (h A hhead) hword

/-! ### Renamings that leave a grammar alone -/

theorem renameWord_empty (w : Word) : empty.renameWord w = w := by
  have hself : ∀ s ∈ w, empty.renameSymbol s = id s := by
    intro s _
    cases s <;> rfl
  unfold renameWord
  rw [List.map_congr_left hself, List.map_id]

theorem apply_empty (g : Grammar) : empty.apply g = g := by
  have hself : ∀ p ∈ g.productions, (empty.rename p.1, empty.renameWord p.2) = id p := by
    intro p _
    rw [renameWord_empty]
    rfl
  unfold apply
  rw [List.map_congr_left hself, List.map_id, Grammar.ofProductions_productions]

theorem apply_eq_self (h : ∀ A ∈ g.mentioned, m.rename A = A) : m.apply g = g :=
  (apply_congr h).trans (apply_empty g)

theorem rename_identity (g : Grammar) (A : NonTerminal) : (identity g).rename A = A := by
  unfold identity ofPairs rename get?
  rw [OrderedMap.get?_ofList_map]
  split <;> rfl

/-! ### Two renamings as one -/

/-- The renaming that has the effect of `m` and `n`, one after the other. -/
def andThen (m n : Renaming) : Renaming :=
  ofPairs ((m.targets.keys ++ n.targets.keys).map fun A => (A, n.rename (m.rename A)))

theorem get?_andThen (m n : Renaming) (A : NonTerminal) :
    (m.andThen n).get? A =
      if A ∈ m.targets.keys ∨ A ∈ n.targets.keys then some (n.rename (m.rename A)) else none := by
  unfold andThen ofPairs get?
  rw [OrderedMap.get?_ofList_map]
  simp only [List.mem_append]

theorem rename_andThen (m n : Renaming) (A : NonTerminal) :
    (m.andThen n).rename A = n.rename (m.rename A) := by
  have hget := get?_andThen m n A
  split at hget
  · exact rename_of_get? hget
  · rename_i hA
    rw [not_or] at hA
    rw [rename_of_not_mem_keys hA.1, rename_of_not_mem_keys hA.2]
    exact rename_of_not_mem_keys (OrderedMap.get?_eq_none_iff.mp hget)

theorem renameWord_andThen (m n : Renaming) (w : Word) :
    (m.andThen n).renameWord w = n.renameWord (m.renameWord w) := by
  unfold renameWord
  rw [List.map_map]
  refine List.map_congr_left fun s _ => ?_
  cases s with
  | nonTerminal A => exact congrArg Symbol.nonTerminal (rename_andThen m n A)
  | terminal c => rfl
  | marker => rfl

/-- Two renamings, one after the other, lead to the rules that their composition leads to. -/
theorem sameRules_andThen (m n : Renaming) (g : Grammar) :
    (n.apply (m.apply g)).SameRules ((m.andThen n).apply g) := by
  intro C x
  simp only [produces_apply, rename_andThen, renameWord_andThen]
  constructor
  · rintro ⟨_, _, ⟨A, w, hw, rfl, rfl⟩, hC, hx⟩
    exact ⟨A, w, hw, hC, hx⟩
  · rintro ⟨A, w, hw, hC, hx⟩
    exact ⟨_, _, ⟨A, w, hw, rfl, rfl⟩, hC, hx⟩

/-! ### Renamings that merge nothing -/

theorem productions_apply (hm : m.InjectiveOn g.mentioned) :
    (m.apply g).productions = g.productions.map fun p => (m.rename p.1, m.renameWord p.2) := by
  rw [Grammar.productions_eq, table_apply hm, rulesOf_rename, ← Grammar.productions_eq]

theorem apply_apply_of_injectiveOn (hm : m.InjectiveOn g.mentioned) (n : Renaming) :
    n.apply (m.apply g) = (m.andThen n).apply g := by
  have hrules := productions_apply hm
  unfold apply at hrules ⊢
  rw [hrules, List.map_map]
  refine congrArg Grammar.ofProductions (List.map_congr_left fun p _ => ?_)
  simp only [Function.comp_apply, rename_andThen, renameWord_andThen]

/-- A renaming that sends everything back to where it was gives the grammar back in its order. -/
theorem apply_undo (hm : m.InjectiveOn g.mentioned)
    (hn : ∀ A ∈ g.mentioned, n.rename (m.rename A) = A) : n.apply (m.apply g) = g := by
  rw [apply_apply_of_injectiveOn hm]
  exact apply_eq_self fun A hA => (rename_andThen m n A).trans (hn A hA)

/-- The renaming that sends back what `m` makes of the non-terminals of `g`. -/
def inverse (m : Renaming) (g : Grammar) : Renaming :=
  ofPairs ((g.heads ++ g.undefined).map fun A => (m.rename A, A))

theorem rename_inverse (hm : m.InjectiveOn g.mentioned) (hA : A ∈ g.mentioned) :
    (m.inverse g).rename (m.rename A) = A := by
  have hkeys : (((g.heads ++ g.undefined).map fun A => (m.rename A, A)).map Prod.fst).Nodup := by
    rw [List.map_map]
    refine List.Nodup.map_on ?_ g.nodup_heads_append_undefined
    intro B hB C hC
    exact hm B (Grammar.mem_heads_append_undefined_iff.mp hB) C
      (Grammar.mem_heads_append_undefined_iff.mp hC)
  have hentry : (m.rename A, A) ∈ (g.heads ++ g.undefined).map fun A => (m.rename A, A) :=
    List.mem_map_of_mem (Grammar.mem_heads_append_undefined_iff.mpr hA)
  refine rename_of_get? ?_
  unfold inverse ofPairs get? OrderedMap.get?
  rw [OrderedMap.entries_ofList hkeys]
  exact OrderedMap.find?_eq_some_of_mem hkeys hentry

/-! ### The laws together -/

/-- **Renamings compose**, whatever heads they merge; where they merge none, the order stays and they can
be undone. -/
theorem apply_composes :
    (∀ (m n : Renaming) (g : Grammar),
      (∀ A, (m.andThen n).get? A =
        if A ∈ m.targets.keys ∨ A ∈ n.targets.keys then some (n.rename (m.rename A)) else none) ∧
      (n.apply (m.apply g)).SameRules ((m.andThen n).apply g)) ∧
    (∀ (m : Renaming) (g : Grammar) (B : NonTerminal) (v : Word), (m.apply g).Produces B v ↔
      ∃ A w, g.Produces A w ∧ m.rename A = B ∧ m.renameWord w = v) ∧
    (∀ g : Grammar, (identity g).apply g = g ∧ empty.apply g = g) ∧
    ∀ (m : Renaming) (g : Grammar), m.InjectiveOn g.mentioned →
      (∀ A ∈ g.mentioned, (m.inverse g).rename (m.rename A) = A) ∧
      ∀ n : Renaming, (∀ A ∈ g.mentioned, n.rename (m.rename A) = A) → n.apply (m.apply g) = g := by
  refine ⟨fun m n g => ⟨get?_andThen m n, sameRules_andThen m n g⟩, fun _ _ _ _ => produces_apply,
    fun g => ⟨apply_eq_self fun A _ => rename_identity g A, apply_empty g⟩, ?_⟩
  intro m g hm
  exact ⟨fun _ hA => rename_inverse hm hA, fun _ hn => apply_undo hm hn⟩

/-- The chain `A → B`, `B → C` on `S -> A | B | D`, `A -> a` and `B -> b`, where `D` is undefined, is
undone by `C → B`, `B → A`. -/
theorem apply_chain_undone :
    let S : NonTerminal := ⟨'S'⟩
    let A : NonTerminal := ⟨'A'⟩
    let B : NonTerminal := ⟨'B'⟩
    let C : NonTerminal := ⟨'C'⟩
    let D : NonTerminal := ⟨'D'⟩
    let g := Grammar.ofProductions [(S, [.nonTerminal A]), (S, [.nonTerminal B]),
      (S, [.nonTerminal D]), (A, [.terminal 'a']), (B, [.terminal 'b'])]
    let m := ofPairs [(A, B), (B, C)]
    let n := ofPairs [(C, B), (B, A)]
    m.InjectiveOn g.mentioned ∧ (∀ E ∈ g.mentioned, n.rename (m.rename E) = E) ∧
      D ∈ g.mentioned ∧ (m.inverse g).rename (m.rename D) = D ∧ n.apply (m.apply g) = g := by
  intro S A B C D g m n
  have hm : m.InjectiveOn g.mentioned := by decide
  have hn : ∀ E ∈ g.mentioned, n.rename (m.rename E) = E := by decide
  have hD : D ∈ g.mentioned := by decide
  obtain ⟨_, _, _, hundo⟩ := apply_composes
  obtain ⟨hinverse, hback⟩ := hundo m g hm
  exact ⟨hm, hn, hD, hinverse D hD, hback n hn⟩

/-- If the first renaming merges heads, the composition may lead to another order: of `A -> a`,
`B -> b` and `C -> c` the heads `A` and `C` are merged first, and `B` comes to them later. -/
example :
    let A : NonTerminal := ⟨'A'⟩
    let B : NonTerminal := ⟨'B'⟩
    let C : NonTerminal := ⟨'C'⟩
    let g := Grammar.ofProductions [(A, [.terminal 'a']), (B, [.terminal 'b']), (C, [.terminal 'c'])]
    let m := ofPairs [(C, A)]
    let n := ofPairs [(B, A)]
    n.apply (m.apply g) ≠ (m.andThen n).apply g := by
  decide

end Renaming
end GrammarComparison
