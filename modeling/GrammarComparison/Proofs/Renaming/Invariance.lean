import Mathlib.Data.List.Nodup
import GrammarComparison.Comparison
import GrammarComparison.Proofs.Enumeration.Lockstep
import GrammarComparison.Proofs.Grammar.Table

/-! # Invariance under renaming

A renaming that sends no two of the non-terminals that matter to the same one, where those without
an entry count as sent to themselves, changes nothing about a grammar but its names.  It keeps the
order of heads and of productions and merges none of them (`table_apply`), so that the searches of
the two grammars run in lockstep (`lockstep_apply`) and their enumerations are the same
(`enumerate_apply`).  It follows that a grammar and its renamed form appear equivalent under all
settings (`enumerate_apply_of_injectiveOn`). -/

namespace GrammarComparison

/-! ### The non-terminals of a grammar -/

/-- The heads of a grammar and the non-terminals of its productions, each as often as it occurs. -/
def Grammar.mentioned (g : Grammar) : List NonTerminal :=
  g.heads ++ g.productions.flatMap fun p => p.2.nonTerminals

/-- The word has no non-terminals but those of `As`. -/
def Word.Over (As : List NonTerminal) (w : Word) : Prop := ∀ A ∈ w.nonTerminals, A ∈ As

theorem Grammar.mem_mentioned_of_head {g : Grammar} {A : NonTerminal} (h : A ∈ g.heads) :
    A ∈ g.mentioned := List.mem_append_left _ h

theorem Grammar.mem_undefined_iff {g : Grammar} {A : NonTerminal} :
    A ∈ g.undefined ↔ A ∈ g.mentioned ∧ A ∉ g.heads := by
  unfold undefined mentioned
  rw [List.mem_eraseDups, List.mem_filter, List.mem_append, decide_eq_true_iff]
  constructor
  · rintro ⟨hused, hhead⟩
    exact ⟨.inr hused, hhead⟩
  · rintro ⟨hhead' | hused, hhead⟩
    · exact absurd hhead' hhead
    · exact ⟨hused, hhead⟩

theorem Grammar.mem_heads_append_undefined_iff {g : Grammar} {A : NonTerminal} :
    A ∈ g.heads ++ g.undefined ↔ A ∈ g.mentioned := by
  rw [List.mem_append, mem_undefined_iff]
  constructor
  · rintro (hhead | hundefined)
    · exact mem_mentioned_of_head hhead
    · exact hundefined.1
  · intro h
    by_cases hhead : A ∈ g.heads
    · exact .inl hhead
    · exact .inr ⟨h, hhead⟩

theorem Grammar.over_of_produces {g : Grammar} {A : NonTerminal} {w : Word}
    (h : g.Produces A w) : Word.Over g.mentioned w := by
  intro B hB
  refine List.mem_append_right _ (List.mem_flatMap.mpr ⟨(A, w), ?_, hB⟩)
  exact mem_productions_iff.mpr h

namespace Word

variable {As Bs : List NonTerminal} {u v w : Word} {A : NonTerminal}

theorem Over.mono (h : Over As w) (hAs : ∀ A ∈ As, A ∈ Bs) : Over Bs w :=
  fun A hA => hAs A (h A hA)

theorem over_append : Over As (u ++ v) ↔ Over As u ∧ Over As v := by
  unfold Over
  rw [nonTerminals_append]
  exact List.forall_mem_append

theorem over_cons_nonTerminal : Over As (.nonTerminal A :: w) ↔ A ∈ As ∧ Over As w := by
  unfold Over nonTerminals
  simp [Symbol.nonTerminal?]

end Word

namespace Renaming

variable {m : Renaming} {g : Grammar} {As : List NonTerminal} {A s : NonTerminal} {w x : Word}

/-- The renaming sends different non-terminals of `As` to different ones. -/
def InjectiveOn (m : Renaming) (As : List NonTerminal) : Prop :=
  ∀ A ∈ As, ∀ B ∈ As, m.rename A = m.rename B → A = B

instance (m : Renaming) (As : List NonTerminal) : Decidable (m.InjectiveOn As) :=
  inferInstanceAs (Decidable (∀ A ∈ As, ∀ B ∈ As, m.rename A = m.rename B → A = B))

theorem InjectiveOn.mono {Bs : List NonTerminal} (h : m.InjectiveOn Bs) (hAs : ∀ A ∈ As, A ∈ Bs) :
    m.InjectiveOn As :=
  fun A hA B hB => h A (hAs A hA) B (hAs B hB)

/-! ### Words renamed -/

theorem renameWord_append (m : Renaming) (u v : Word) :
    m.renameWord (u ++ v) = m.renameWord u ++ m.renameWord v := List.map_append

theorem length_renameWord (m : Renaming) (w : Word) : (m.renameWord w).length = w.length :=
  List.length_map _

theorem isTerminal_renameWord (m : Renaming) (w : Word) :
    (m.renameWord w).isTerminal = w.isTerminal := by
  unfold renameWord Word.isTerminal
  rw [List.all_map]
  congr 1
  funext s
  cases s <;> rfl

theorem renameWord_of_isTerminal (m : Renaming) (h : w.isTerminal) : m.renameWord w = w := by
  induction w with
  | nil => rfl
  | cons s w ih =>
      simp only [Word.isTerminal, List.all_cons, Bool.and_eq_true] at h
      have hs : m.renameSymbol s = s := by
        cases s with
        | nonTerminal A => simp [Symbol.nonTerminal?] at h
        | terminal c => rfl
        | marker => rfl
      have hw : m.renameWord w = w := ih h.2
      show m.renameSymbol s :: m.renameWord w = s :: w
      rw [hs, hw]

theorem splitLeftmost_renameWord (m : Renaming) (w : Word) :
    (m.renameWord w).splitLeftmost =
      w.splitLeftmost.map fun p => (m.renameWord p.1, m.rename p.2.1, m.renameWord p.2.2) := by
  induction w with
  | nil => rfl
  | cons s w ih =>
      have hcons : m.renameWord (s :: w) = m.renameSymbol s :: m.renameWord w := rfl
      rw [hcons]
      cases s with
      | nonTerminal A => rfl
      | terminal c =>
          simp only [renameSymbol, Word.splitLeftmost, ih, Option.map_map]
          rfl
      | marker =>
          simp only [renameSymbol, Word.splitLeftmost, ih, Option.map_map]
          rfl

theorem renameWord_injective (hm : m.InjectiveOn As) (hw : Word.Over As w) (hx : Word.Over As x)
    (h : m.renameWord w = m.renameWord x) : w = x := by
  induction w generalizing x with
  | nil => exact (List.map_eq_nil_iff.mp h.symm).symm
  | cons s w ih =>
      cases x with
      | nil => exact absurd (List.map_eq_nil_iff.mp h) (by simp)
      | cons r x =>
          obtain ⟨hsr, hwx⟩ := List.cons.inj h
          obtain ⟨hs, hw⟩ := Word.over_append (u := [s]).mp hw
          obtain ⟨hr, hx⟩ := Word.over_append (u := [r]).mp hx
          rw [ih hw hx hwx]
          congr 1
          cases s with
          | nonTerminal A =>
              cases r with
              | nonTerminal B =>
                  have hA := (Word.over_cons_nonTerminal.mp hs).1
                  have hB := (Word.over_cons_nonTerminal.mp hr).1
                  rw [hm A hA B hB (Symbol.nonTerminal.inj hsr)]
              | terminal _ => simp [renameSymbol] at hsr
              | marker => simp [renameSymbol] at hsr
          | terminal c => cases r <;> simp_all [renameSymbol]
          | marker => cases r <;> simp_all [renameSymbol]

/-! ### The renamed grammar -/

theorem rulesOf_rename (m : Renaming) (t : List (NonTerminal × List Word)) :
    Grammar.rulesOf (t.map fun e => (m.rename e.1, e.2.map m.renameWord)) =
      (Grammar.rulesOf t).map fun p => (m.rename p.1, m.renameWord p.2) := by
  unfold Grammar.rulesOf
  rw [List.map_flatMap, List.flatMap_map]
  simp only [List.map_map]
  rfl

/-- **The renamed grammar in order**: it has the heads and productions of the grammar, renamed, and
merges none. -/
theorem table_apply (hm : m.InjectiveOn g.mentioned) :
    (m.apply g).table = g.table.map fun e => (m.rename e.1, e.2.map m.renameWord) := by
  unfold apply
  rw [Grammar.productions_eq, ← rulesOf_rename]
  refine Grammar.table_ofProductions ?_ ?_
  · have hfst : (g.table.map fun e => (m.rename e.1, e.2.map m.renameWord)).map Prod.fst =
        g.heads.map m.rename := by
      rw [List.map_map, ← Grammar.map_fst_table, List.map_map]
      rfl
    rw [hfst]
    refine List.Nodup.map_on ?_ g.nodup_heads
    intro A hA B hB
    exact hm A (Grammar.mem_mentioned_of_head hA) B (Grammar.mem_mentioned_of_head hB)
  · intro e' he'
    obtain ⟨e, he, rfl⟩ := List.mem_map.mp he'
    obtain ⟨hne, hnodup⟩ := Grammar.mem_table he
    refine ⟨by simpa using hne, List.Nodup.map_on ?_ hnodup⟩
    intro w hw x hx
    have hmem : ∀ v ∈ e.2, Word.Over g.mentioned v := by
      intro v hv
      refine Grammar.over_of_produces (A := e.1) (Grammar.mem_productions_iff.mp ?_)
      rw [Grammar.productions_eq]
      exact List.mem_flatMap.mpr ⟨e, he, List.mem_map_of_mem hv⟩
    exact renameWord_injective hm (hmem w hw) (hmem x hx)

theorem alternatives_apply (hm : m.InjectiveOn (s :: g.mentioned)) (hA : A ∈ s :: g.mentioned) :
    (m.apply g).alternatives (m.rename A) = (g.alternatives A).map m.renameWord := by
  have hmentioned : m.InjectiveOn g.mentioned := hm.mono fun B hB => List.mem_cons_of_mem s hB
  have hheads : ∀ B ∈ g.table.map Prod.fst, m.rename B = m.rename A → B = A := by
    intro B hB
    rw [Grammar.map_fst_table] at hB
    exact hm B (List.mem_cons_of_mem s (Grammar.mem_mentioned_of_head hB)) A hA
  rw [Grammar.alternatives_eq, Grammar.alternatives_eq, table_apply hmentioned,
    OrderedMap.find?_map hheads]
  cases OrderedMap.find? A g.table <;> rfl

theorem successors_apply (hm : m.InjectiveOn (s :: g.mentioned))
    (hw : Word.Over (s :: g.mentioned) w) :
    (m.apply g).successors (m.renameWord w) = (g.successors w).map m.renameWord := by
  unfold Grammar.successors
  rw [splitLeftmost_renameWord]
  cases hsplit : w.splitLeftmost with
  | none => rfl
  | some p =>
      obtain ⟨u, A, v⟩ := p
      obtain ⟨rfl, _⟩ := Word.splitLeftmost_eq_some hsplit
      have hA := (Word.over_cons_nonTerminal.mp (Word.over_append.mp hw).2).1
      dsimp only [Option.map_some]
      rw [alternatives_apply hm hA, List.map_map, List.map_map]
      refine List.map_congr_left fun p _ => ?_
      simp only [Function.comp_apply, renameWord_append]

/-! ### Renamed searches -/

/-- An injective renaming takes the search along with it. -/
theorem lockstep_apply (hm : m.InjectiveOn (s :: g.mentioned)) :
    Lockstep g (m.apply g) (Word.Over (s :: g.mentioned)) m.renameWord where
  injective := fun _ _ hw hx => renameWord_injective hm hw hx
  length_eq := fun w _ => length_renameWord m w
  isTerminal_eq := fun w _ => isTerminal_renameWord m w
  spelling_eq := fun w _ hterm => by rw [renameWord_of_isTerminal m hterm]
  closed := by
    intro w hw x hx
    obtain ⟨u, A, v, p, rfl, _, hp, rfl⟩ := mem_successors_iff.mp hx
    obtain ⟨hu, hAv⟩ := Word.over_append.mp hw
    have hp' := (Grammar.over_of_produces hp).mono fun B hB => List.mem_cons_of_mem s hB
    exact Word.over_append.mpr ⟨Word.over_append.mpr ⟨hu, hp'⟩, (Word.over_cons_nonTerminal.mp hAv).2⟩
  successors_eq := fun _ hw => successors_apply hm hw

theorem enumerate_apply (hm : m.InjectiveOn (s :: g.mentioned)) (b : Bounds)
    (limit : Option Nat) :
    (m.apply g).enumerate b limit (m.rename s) =
      { g.enumerate b limit s with start := m.rename s } := by
  refine (lockstep_apply hm).enumerate_eq ?_ rfl
  exact Word.over_cons_nonTerminal.mpr ⟨List.mem_cons_self, by simp [Word.Over, Word.nonTerminals]⟩

/-- **Invariance under renaming.**  Where nothing is merged the enumeration is the same, step for step, and
the two grammars appear equivalent under all settings. -/
theorem enumerate_apply_of_injectiveOn (g : Grammar) (s : NonTerminal) (m : Renaming)
    (hm : m.InjectiveOn (s :: g.mentioned)) :
    (∀ b limit,
      let e := g.enumerate b limit s
      let f := (m.apply g).enumerate b limit (m.rename s)
      f.language = e.language ∧ f.steps = e.steps ∧ f.forms = e.forms ∧ f.isCut = e.isCut) ∧
    ∀ c : Config, (c.compare g s (m.apply g) (m.rename s)).report.verdict = .equivalent := by
  constructor
  · intro b limit
    dsimp only
    rw [enumerate_apply hm]
    exact ⟨rfl, rfl, rfl, rfl⟩
  · intro c
    unfold Config.compare
    dsimp only
    rw [enumerate_apply hm, if_pos rfl]
    rfl

/-- Exchanging the heads of `S -> aA` and `A -> bS | c | D`, where `D` is undefined and stays, leaves
the enumeration as it is. -/
theorem enumerate_exchanged_heads :
    let S : NonTerminal := ⟨'S'⟩
    let A : NonTerminal := ⟨'A'⟩
    let g := Grammar.ofProductions [(S, [.terminal 'a', .nonTerminal A]),
      (A, [.terminal 'b', .nonTerminal S]), (A, [.terminal 'c']), (A, [.nonTerminal ⟨'D'⟩])]
    let m := ofPairs [(S, A), (A, S)]
    m.InjectiveOn (S :: g.mentioned) ∧
      (∀ b limit, ((m.apply g).enumerate b limit A).language = (g.enumerate b limit S).language ∧
        ((m.apply g).enumerate b limit A).isCut = (g.enumerate b limit S).isCut) ∧
      ∀ c : Config, (c.compare g S (m.apply g) A).report.verdict = .equivalent := by
  intro S A g m
  have hm : m.InjectiveOn (S :: g.mentioned) := by decide
  obtain ⟨henumerate, hcompare⟩ := enumerate_apply_of_injectiveOn g S m hm
  refine ⟨hm, ?_, hcompare⟩
  intro b limit
  obtain ⟨hlanguage, _, _, hcut⟩ := henumerate b limit
  exact ⟨hlanguage, hcut⟩

end Renaming
end GrammarComparison
