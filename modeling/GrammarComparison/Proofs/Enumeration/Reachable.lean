import GrammarComparison.Proofs.Enumeration.Lockstep

/-! # Rules out of reach

The search for the strings of a grammar looks up the productions of those non-terminals only that it
meets in its forms, and these are reachable from the start symbol: each step of a derivation brings in
the non-terminals of a production of one that is reachable already.  Two grammars that have the same
productions, in the same order, for all that is reachable (`Grammar.AgreesFrom`) are therefore in
lockstep on the forms within reach (`lockstep_of_agreesFrom`), and their searches are the same, round
for round (`enumerate_of_agreesFrom`).

A list of non-terminals that holds the start symbol and whatever the productions of its members
mention shows that two grammars agree (`agreesFrom_of_closed`). -/

namespace GrammarComparison

/-! ### What can be reached -/

/-- The non-terminals that the productions of `g` lead to from `A`, itself included. -/
inductive Grammar.Reachable (g : Grammar) (A : NonTerminal) : NonTerminal → Prop
  | start : Reachable g A A
  | occurs {B C : NonTerminal} {w : Word} (hB : Reachable g A B) (hw : g.Produces B w)
      (hC : C ∈ w.nonTerminals) : Reachable g A C

/-- What is reachable from `A` through the productions of `g` has the same productions in `g` and in
`h`, in the same order, or is undefined in both. -/
def Grammar.AgreesFrom (g h : Grammar) (A : NonTerminal) : Prop :=
  ∀ B, g.Reachable A B → g.alternatives? B = h.alternatives? B

/-- All non-terminals of the word are reachable from `A`. -/
def Word.WithinReach (g : Grammar) (A : NonTerminal) (w : Word) : Prop :=
  ∀ B ∈ w.nonTerminals, g.Reachable A B

variable {g h : Grammar} {A B : NonTerminal} {u v w x : Word}

theorem Grammar.Reachable.mem_of_closed {As : List NonTerminal} (hA : A ∈ As)
    (hclosed : ∀ B ∈ As, ∀ w ∈ g.alternatives B, ∀ C ∈ w.nonTerminals, C ∈ As)
    (hB : g.Reachable A B) : B ∈ As := by
  induction hB with
  | start => exact hA
  | occurs _ hw hC ih => exact hclosed _ ih _ hw _ hC

/-- Grammars agree if they do so on a list that no production leads out of. -/
theorem Grammar.agreesFrom_of_closed (As : List NonTerminal) (hA : A ∈ As)
    (hclosed : ∀ B ∈ As, ∀ w ∈ g.alternatives B, ∀ C ∈ w.nonTerminals, C ∈ As)
    (hsame : ∀ B ∈ As, g.alternatives? B = h.alternatives? B) : g.AgreesFrom h A :=
  fun _ hB => hsame _ (hB.mem_of_closed hA hclosed)

/-! ### Forms within reach -/

namespace Word

theorem withinReach_append :
    WithinReach g A (u ++ v) ↔ WithinReach g A u ∧ WithinReach g A v := by
  unfold WithinReach
  rw [nonTerminals_append]
  exact List.forall_mem_append

theorem withinReach_nonTerminal_cons :
    WithinReach g A (.nonTerminal B :: v) ↔ g.Reachable A B ∧ WithinReach g A v :=
  List.forall_mem_cons

theorem WithinReach.of_mem_successors (hw : WithinReach g A w) (hx : x ∈ g.successors w) :
    WithinReach g A x := by
  obtain ⟨u, B, v, p, rfl, _, hp, rfl⟩ := mem_successors_iff.mp hx
  obtain ⟨hu, hBv⟩ := withinReach_append.mp hw
  obtain ⟨hB, hv⟩ := withinReach_nonTerminal_cons.mp hBv
  have hpreach : WithinReach g A p := fun _ hC => hB.occurs hp hC
  exact withinReach_append.mpr ⟨withinReach_append.mpr ⟨hu, hpreach⟩, hv⟩

end Word

theorem Grammar.AgreesFrom.successors_eq (e : g.AgreesFrom h A) (hw : w.WithinReach g A) :
    h.successors w = g.successors w := by
  unfold successors
  split
  · rfl
  · rename_i u B v hsplit
    obtain ⟨rfl, _⟩ := Word.splitLeftmost_eq_some hsplit
    have hB := (Word.withinReach_nonTerminal_cons.mp (Word.withinReach_append.mp hw).2).1
    rw [alternatives, alternatives, e B hB]

/-! ### The same search -/

/-- Grammars that agree on what is reachable search in lockstep, form by form. -/
theorem lockstep_of_agreesFrom (e : g.AgreesFrom h A) : Lockstep g h (Word.WithinReach g A) id where
  injective := fun _ _ _ _ hwx => hwx
  length_eq := fun _ _ => rfl
  isTerminal_eq := fun _ _ => rfl
  spelling_eq := fun _ _ _ => rfl
  closed := fun _ hw _ hx => hw.of_mem_successors hx
  successors_eq := fun w hw => by rw [id, e.successors_eq hw, List.map_id]

/-- **Rules out of reach are of no account**, whatever the bounds and the step limit. -/
theorem enumerate_of_agreesFrom (e : g.AgreesFrom h A) (b : Bounds) (limit : Option Nat) :
    h.enumerate b limit A = g.enumerate b limit A := by
  refine (lockstep_of_agreesFrom e).enumerate_eq ?_ rfl
  exact Word.withinReach_nonTerminal_cons.mpr ⟨.start, List.forall_mem_nil _⟩

/-- From `S` the rules `S -> aA | D` and `A -> bA | c` reach `A` and the undefined `D` alone.  A second
grammar that lists `A` first, has no rule for `X` and has other rules for `Y` enumerates the same, also
where the step limit cuts it. -/
theorem enumerate_without_unreachable :
    let S : NonTerminal := ⟨'S'⟩
    let A : NonTerminal := ⟨'A'⟩
    let D : NonTerminal := ⟨'D'⟩
    let X : NonTerminal := ⟨'X'⟩
    let Y : NonTerminal := ⟨'Y'⟩
    let g := Grammar.ofProductions [(X, [.nonTerminal S]), (S, [.terminal 'a', .nonTerminal A]),
      (S, [.nonTerminal D]), (A, [.terminal 'b', .nonTerminal A]), (A, [.terminal 'c']),
      (Y, [.nonTerminal X])]
    let h := Grammar.ofProductions [(A, [.terminal 'b', .nonTerminal A]), (Y, [.nonTerminal Y]),
      (S, [.terminal 'a', .nonTerminal A]), (A, [.terminal 'c']), (Y, [.marker]),
      (S, [.nonTerminal D])]
    g.AgreesFrom h S ∧ (∀ b limit, h.enumerate b limit S = g.enumerate b limit S) ∧
      (g.enumerate ⟨5, none⟩ (some 6) S).isCut = true := by
  intro S A D X Y g h
  have hagrees : g.AgreesFrom h S :=
    Grammar.agreesFrom_of_closed [S, A, D] (by decide) (by decide) (by decide)
  exact ⟨hagrees, enumerate_of_agreesFrom hagrees, by decide +kernel⟩

end GrammarComparison
