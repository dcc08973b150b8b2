import GrammarComparison.Proofs.Grammar.FirstOccurrence
import GrammarComparison.Proofs.Renaming.Invariance
import GrammarComparison.Proofs.Shape

/-! # What an analysis counts

An analysis lists the heads of a grammar and then its undefined non-terminals (`Grammar.keys_analysis`).
The shape of a head is the outcome of one pass over its productions, each of which raises the total and
at most one other count (`Shape.ofWords_concat`, `Shape.ofWords_eq_foldl`).

Which count that is depends on the kind of the production (`Word.kind`).  A production that is the marker
alone is erasing; in any other one markers are of no account.  If it holds neither terminals nor
non-terminals, then it is the empty word or holds several markers (`Word.kind_eq_hollow_iff`), and no
count tells of it but the total.  `Shape.Tallies` says what the counts are, and that they add up if the
productions without a count are added. -/

namespace GrammarComparison

variable {w : Word}

/-! ### The kind of a production -/

/-- What a production holds besides markers. -/
inductive Kind where
  /-- It is the marker alone. -/
  | erasing
  | terminalOnly
  | nonTerminalOnly
  | mixed
  /-- It is not the marker alone and holds neither terminals nor non-terminals. -/
  | hollow
  deriving DecidableEq, Repr

/-- The kind of a production that is not the marker alone, by whether it holds terminals and whether it
holds non-terminals. -/
def Kind.ofHeld : Bool → Bool → Kind
  | true, false => terminalOnly
  | false, true => nonTerminalOnly
  | true, true => mixed
  | false, false => hollow

theorem Kind.ofHeld_ne_erasing (t n : Bool) : ofHeld t n ≠ erasing := by
  cases t <;> cases n <;> simp [ofHeld]

theorem Kind.ofHeld_eq_iff {t n t' n' : Bool} : ofHeld t n = ofHeld t' n' ↔ t = t' ∧ n = n' := by
  cases t <;> cases n <;> cases t' <;> cases n' <;> simp [ofHeld]

namespace Word

/-- The word holds a terminal. -/
def HasTerminal (w : Word) : Prop := ∃ c, .terminal c ∈ w

/-- The word holds a non-terminal. -/
def HasNonTerminal (w : Word) : Prop := ∃ A, .nonTerminal A ∈ w

theorem hasTerminal_iff : w.HasTerminal ↔ w.terminals ≠ [] := by
  rw [← List.length_pos_iff, List.length_pos_iff_exists_mem]
  exact exists_congr fun _ => mem_terminals_iff.symm

theorem hasNonTerminal_iff : w.HasNonTerminal ↔ w.nonTerminals ≠ [] := by
  rw [← List.length_pos_iff, List.length_pos_iff_exists_mem]
  exact exists_congr fun _ => mem_nonTerminals_iff.symm

instance (w : Word) : Decidable w.HasTerminal := decidable_of_iff _ hasTerminal_iff.symm

instance (w : Word) : Decidable w.HasNonTerminal := decidable_of_iff _ hasNonTerminal_iff.symm

/-- The kind of the word as a production. -/
def kind (w : Word) : Kind :=
  if w = [.marker] then .erasing else .ofHeld w.HasTerminal w.HasNonTerminal

theorem kind_eq_ofHeld_iff {t n : Bool} : w.kind = .ofHeld t n ↔
    w ≠ [.marker] ∧ (w.HasTerminal ↔ t = true) ∧ (w.HasNonTerminal ↔ n = true) := by
  unfold kind
  by_cases hepsilon : w = [.marker]
  · simp [hepsilon, (Kind.ofHeld_ne_erasing t n).symm]
  · rw [if_neg hepsilon, Kind.ofHeld_eq_iff]
    cases t <;> cases n <;> simp [hepsilon]

theorem holds_neither_iff : ¬ w.HasTerminal ∧ ¬ w.HasNonTerminal ↔ ∀ s ∈ w, s = .marker := by
  constructor
  · rintro ⟨hterminal, hnonTerminal⟩ s hs
    cases s with
    | terminal c => exact absurd ⟨c, hs⟩ hterminal
    | nonTerminal A => exact absurd ⟨A, hs⟩ hnonTerminal
    | marker => rfl
  · intro hmarkers
    constructor
    · rintro ⟨c, hc⟩
      exact absurd (hmarkers _ hc) (by simp)
    · rintro ⟨A, hA⟩
      exact absurd (hmarkers _ hA) (by simp)

/-- What is hollow is the empty word or holds several markers. -/
theorem kind_eq_hollow_iff : w.kind = .hollow ↔ ∃ n, n ≠ 1 ∧ w = List.replicate n .marker := by
  have hkind : w.kind = .hollow ↔ w ≠ [.marker] ∧ ¬ w.HasTerminal ∧ ¬ w.HasNonTerminal := by
    simpa [Kind.ofHeld] using kind_eq_ofHeld_iff (w := w) (t := false) (n := false)
  rw [hkind, holds_neither_iff]
  constructor
  · rintro ⟨hne, hmarkers⟩
    have hw := List.eq_replicate_of_mem hmarkers
    refine ⟨w.length, ?_, hw⟩
    intro hone
    rw [hone] at hw
    exact hne hw
  · rintro ⟨n, hn, rfl⟩
    refine ⟨?_, fun _ => List.eq_of_mem_replicate⟩
    intro heq
    have hlength := congrArg List.length heq
    rw [List.length_replicate] at hlength
    exact hn hlength

theorem isEpsilon_eq (w : Word) : w.isEpsilon = decide (w.kind = .erasing) := by
  unfold isEpsilon epsilon kind
  by_cases hepsilon : w = [.marker]
  · simp [hepsilon]
  · simp [hepsilon, Kind.ofHeld_ne_erasing]

theorem holds_eq (t n : Bool) (w : Word) : Shape.holds t n w = decide (w.kind = .ofHeld t n) := by
  rw [Bool.eq_iff_iff, decide_eq_true_iff, kind_eq_ofHeld_iff, hasTerminal_iff, hasNonTerminal_iff]
  unfold Shape.holds isEpsilon epsilon
  cases t <;> cases n <;> simp [and_assoc]

theorem count_terminals (w : Word) (c : Char) : w.terminals.count c = w.count (.terminal c) := by
  unfold terminals
  rw [List.count_filterMap, List.count_eq_countP]
  refine List.countP_congr fun s _ => ?_
  cases s <;> simp [Symbol.terminal?]

end Word

namespace Shape

/-! ### Occurrences -/

theorem keys_count (cs : List Char) : (count cs).keys = cs.eraseDups := OrderedMap.keys_tally cs

theorem get?_count (cs : List Char) (c : Char) :
    (count cs).get? c = if c ∈ cs then some (cs.count c) else none := OrderedMap.get?_tally cs c

/-! ### One production after another -/

theorem ofWords_eq (ws : List Word) : ofWords ws =
    { total := ws.length
      erasing := ws.countP (·.kind = .erasing)
      terminalOnly := ws.countP (·.kind = .terminalOnly)
      nonTerminalOnly := ws.countP (·.kind = .nonTerminalOnly)
      mixed := ws.countP (·.kind = .mixed)
      occurrences := count (ws.flatMap Word.terminals) } := by
  unfold ofWords
  rw [funext Word.isEpsilon_eq, funext (Word.holds_eq true false), funext (Word.holds_eq false true),
    funext (Word.holds_eq true true)]
  rfl

/-- The shape with one more production: the total is raised, the counts of its terminals are, and the
count of its kind is if there is one. -/
def add (s : Shape) (w : Word) : Shape :=
  let t := { s with
    total := s.total + 1
    occurrences := w.terminals.foldl (fun m c => m.update c fun n => n.getD 0 + 1) s.occurrences }
  match w.kind with
  | .erasing => { t with erasing := t.erasing + 1 }
  | .terminalOnly => { t with terminalOnly := t.terminalOnly + 1 }
  | .nonTerminalOnly => { t with nonTerminalOnly := t.nonTerminalOnly + 1 }
  | .mixed => { t with mixed := t.mixed + 1 }
  | .hollow => t

/-- **One production raises the total and at most one other count.** -/
theorem ofWords_concat (ws : List Word) (w : Word) : ofWords (ws ++ [w]) = (ofWords ws).add w := by
  have hoccurrences : count ((ws ++ [w]).flatMap Word.terminals) =
      w.terminals.foldl (fun m c => m.update c fun n => n.getD 0 + 1)
        (count (ws.flatMap Word.terminals)) := by
    rw [List.flatMap_append, List.flatMap_singleton]
    exact List.foldl_append
  rw [ofWords_eq, ofWords_eq, hoccurrences]
  unfold add
  cases hkind : w.kind <;> simp [List.countP_append, hkind]

/-- The shape of productions is the outcome of one pass over them. -/
theorem ofWords_eq_foldl (ws : List Word) : ofWords ws = ws.foldl add zero := by
  induction ws using List.reverseRec with
  | nil => rfl
  | append_singleton ws w ih => rw [ofWords_concat, ih, List.foldl_concat]

/-! ### The counts -/

theorem length_eq_add (ws : List Word) :
    ws.length = ws.countP (·.kind = .erasing) + ws.countP (·.kind = .terminalOnly) +
      ws.countP (·.kind = .nonTerminalOnly) + ws.countP (·.kind = .mixed) +
      ws.countP (·.kind = .hollow) := by
  induction ws with
  | nil => rfl
  | cons w ws ih =>
      cases hkind : w.kind <;> simp [hkind, ih] <;> omega

/-- The counts are those of the productions `ws`. -/
structure Tallies (s : Shape) (ws : List Word) : Prop where
  total : s.total = ws.length
  erasing : s.erasing = ws.countP (·.kind = .erasing)
  terminalOnly : s.terminalOnly = ws.countP (·.kind = .terminalOnly)
  nonTerminalOnly : s.nonTerminalOnly = ws.countP (·.kind = .nonTerminalOnly)
  mixed : s.mixed = ws.countP (·.kind = .mixed)
  /-- The counts add up, but for the productions that are hollow. -/
  sum : s.total = s.erasing + s.terminalOnly + s.nonTerminalOnly + s.mixed +
    ws.countP (·.kind = .hollow)
  /-- Terminals are listed in the order in which they first occur in the productions. -/
  keys : s.occurrences.keys = (Word.terminals ws.flatten).eraseDups
  /-- Each terminal of the productions, and nothing else, is listed with all its occurrences. -/
  occurrences : ∀ c, s.occurrences.get? c =
    if .terminal c ∈ ws.flatten then some (ws.flatten.count (.terminal c)) else none

theorem tallies_ofWords (ws : List Word) : (ofWords ws).Tallies ws := by
  have hterminals : ws.flatMap Word.terminals = Word.terminals ws.flatten := by
    unfold Word.terminals
    rw [List.filterMap_flatten]
    rfl
  rw [ofWords_eq, hterminals]
  refine ⟨rfl, rfl, rfl, rfl, rfl, length_eq_add ws, keys_count _, fun c => ?_⟩
  dsimp only
  rw [get?_count, Word.count_terminals]
  simp only [Word.mem_terminals_iff]

end Shape

/-! ### The entries of an analysis -/

namespace Grammar

theorem heads_append_undefined (g : Grammar) : g.heads ++ g.undefined = g.mentioned.eraseDups := by
  have hheads : g.heads.eraseDups = g.heads := eraseDups_of_nodup g.nodup_heads
  unfold mentioned
  rw [List.eraseDups_append, hheads]
  unfold undefined List.removeAll
  simp

theorem entries_analysis (g : Grammar) : g.analysis.shapes.entries =
    g.mentioned.eraseDups.map fun A => (A, .ofWords (g.alternatives A)) := by
  rw [← heads_append_undefined]
  refine OrderedMap.entries_ofList ?_
  rw [List.map_map]
  exact (List.map_id _).symm ▸ g.nodup_heads_append_undefined

theorem keys_analysis (g : Grammar) : g.analysis.shapes.keys = g.heads ++ g.undefined := by
  unfold OrderedMap.keys
  rw [entries_analysis, ← heads_append_undefined, List.map_map]
  exact List.map_id _

theorem get?_analysis (g : Grammar) (A : NonTerminal) : g.analysis.shapes.get? A =
    if A ∈ g.mentioned then some (.ofWords (g.alternatives A)) else none := by
  unfold analysis
  rw [OrderedMap.get?_ofList_map]
  simp only [mem_heads_append_undefined_iff]

/-- **An analysis counts each production once**, with the heads in order and then the undefined
non-terminals, whose shapes count nothing. -/
theorem analysis_classifies (g : Grammar) :
    (g.analysis.shapes.keys = g.heads ++ g.undefined ∧
      g.heads ++ g.undefined = g.mentioned.eraseDups) ∧
    (∀ A ∈ g.undefined, g.analysis.shapes.get? A = some .zero) ∧
    (∀ A ∈ g.heads, ∃ s, g.analysis.shapes.get? A = some s ∧
      s = (g.alternatives A).foldl Shape.add .zero ∧ s.Tallies (g.alternatives A)) ∧
    ∀ w : Word, w.kind = .hollow ↔ ∃ n, n ≠ 1 ∧ w = List.replicate n .marker := by
  refine ⟨⟨g.keys_analysis, g.heads_append_undefined⟩, ?_, ?_, fun _ => Word.kind_eq_hollow_iff⟩
  · intro A hA
    obtain ⟨hmentioned, hhead⟩ := mem_undefined_iff.mp hA
    rw [get?_analysis, if_pos hmentioned, alternatives_of_not_mem_heads hhead]
    rfl
  · intro A hA
    refine ⟨.ofWords (g.alternatives A), ?_, Shape.ofWords_eq_foldl _, Shape.tallies_ofWords _⟩
    rw [get?_analysis, if_pos (mem_mentioned_of_head hA)]

/-- Of six productions of `S` four are of one kind each and two are hollow; `C` and `B` are undefined. -/
theorem analysis_of_all_kinds :
    let S : NonTerminal := ⟨'S'⟩
    let A : NonTerminal := ⟨'A'⟩
    let B : NonTerminal := ⟨'B'⟩
    let C : NonTerminal := ⟨'C'⟩
    let g := ofProductions [(S, [.terminal 'b', .nonTerminal A]), (S, [.marker]),
      (S, [.marker, .nonTerminal C]), (S, [.terminal 'a', .marker, .terminal 'b']),
      (S, [.marker, .marker]), (S, []), (A, [.nonTerminal B])]
    g.analysis.shapes.keys = [S, A, C, B] ∧
      (B ∈ g.undefined ∧ g.analysis.shapes.get? B = some .zero) ∧
      S ∈ g.heads ∧ ∃ s, g.analysis.shapes.get? S = some s ∧
        (s.total, s.erasing, s.terminalOnly, s.nonTerminalOnly, s.mixed) = (6, 1, 1, 1, 1) ∧
        s.occurrences.keys = ['b', 'a'] ∧ s.occurrences.get? 'b' = some 2 := by
  intro S A B C g
  obtain ⟨⟨hkeys, _⟩, hundefined, hheads, _⟩ := analysis_classifies g
  have hB : B ∈ g.undefined := by decide
  have hS : S ∈ g.heads := by decide
  obtain ⟨s, hget, _, htallies⟩ := hheads S hS
  refine ⟨hkeys.trans (by decide), ⟨hB, hundefined B hB⟩, hS, s, hget, ?_, ?_, ?_⟩
  · rw [htallies.total, htallies.erasing, htallies.terminalOnly, htallies.nonTerminalOnly,
      htallies.mixed]
    decide
  · exact htallies.keys.trans (by decide)
  · exact (htallies.occurrences 'b').trans (by decide)

end Grammar

end GrammarComparison
