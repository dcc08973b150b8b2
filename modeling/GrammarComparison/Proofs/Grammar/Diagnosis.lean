import Mathlib.Algebra.Ring.Nat
import GrammarComparison.Proofs.Grammar.RuleLanguage

/-! # What a diagnosis accounts for

Reading a text, and reporting on it, go line by line.  Every message but those on merged heads is about a
line (`Event.lineNumber?`), and the messages about a line are those that the line itself gives rise to
(`filter_lineEvents`).  A line that is not accepted gives rise to one message; one that is accepted is
reported only for alternatives that its head has already (`settled_diagnose`).

Adding an alternative makes the grammar one rule longer or is reported, never both and never neither
(`length_productions_insert`).  So rules and reports balance on one line (`Line.balance`), and from line
to line on all of them (`balance_lineEvents`).

How many lines declare a head is counted apart from the rules, so that a line without alternatives
counts; the heads stand in the order in which they were first accepted (`mergeEvents_eq`).  Warnings are
on these heads, and before them on the heads that are too long (`warnings_diagnose`).

`diagnose_accounts` puts this together.  Its lines are those of the normalized text, from the first that
is not blank to the last, numbered from one. -/

namespace GrammarComparison

/-- The number of the line that an event is about. -/
def Event.lineNumber? : Event → Option Nat
  | .noArrow n | .emptyHead n | .longHead n _ | .duplicate n _ _ => some n
  | _ => none

/-- Whether an event reports an alternative that its head has already. -/
def Event.isDuplicate : Event → Bool
  | .duplicate .. => true
  | _ => false

/-! ### Rules that are added -/

namespace Grammar

theorem nodup_productions (g : Grammar) : g.productions.Nodup := by
  have hkeys : (g.table.map Prod.fst).Nodup := map_fst_table g ▸ nodup_heads g
  rw [productions_eq, rulesOf, List.nodup_flatMap]
  refine ⟨fun e he => (mem_table he).2.map fun _ _ h => (Prod.mk.inj h).2, ?_⟩
  rw [List.Nodup, List.pairwise_map] at hkeys
  refine hkeys.imp fun {d e} hne p hd he => ?_
  obtain ⟨_, _, rfl⟩ := List.mem_map.mp hd
  obtain ⟨_, _, heq⟩ := List.mem_map.mp he
  exact hne (congrArg Prod.fst heq).symm

theorem length_productions_insert (g : Grammar) (A : NonTerminal) (w : Word) :
    (g.insert A w).productions.length =
      g.productions.length + if g.Produces A w then 0 else 1 := by
  have hmem : ∀ p, p ∈ (g.insert A w).productions ↔ p = (A, w) ∨ p ∈ g.productions := by
    rintro ⟨B, v⟩
    rw [mem_productions_iff, mem_productions_iff, produces_insert, Prod.mk.injEq]
  -- neither list repeats a rule, so that their lengths are a matter of what is in them
  split
  · rename_i hold
    refine List.Perm.length_eq ((List.perm_ext_iff_of_nodup (nodup_productions _)
      (nodup_productions _)).mpr fun p => ?_)
    rw [hmem, or_iff_right_of_imp]
    rintro rfl
    exact mem_productions_iff.mpr hold
  · rename_i hnew
    have hnodup : ((A, w) :: g.productions).Nodup :=
      List.nodup_cons.mpr ⟨mt mem_productions_iff.mp hnew, nodup_productions g⟩
    refine List.Perm.length_eq ((List.perm_ext_iff_of_nodup (nodup_productions _) hnodup).mpr
      fun p => ?_)
    rw [hmem, List.mem_cons]

end Grammar

namespace RuleText

variable {g : Grammar} {A : NonTerminal} {l cs : List Char} {n i : Nat} {e : Event}

/-! ### One line -/

/-- The head and the alternatives of a line that is a rule. -/
def Line.rule? : Line → Option (NonTerminal × List (List Char))
  | rule A css => some (A, css)
  | _ => none

/-- The head of a line whose head is too long. -/
def Line.longHead? : Line → Option (List Char)
  | longHead head => some head
  | _ => none

theorem sublist_duplicates (A : NonTerminal) (g : Grammar) (css : List (List Char)) :
    (duplicates A g css).Sublist css := by
  induction css generalizing g with
  | nil => exact .refl []
  | cons cs css ih =>
      rw [duplicates]
      split
      · exact (ih _).cons_cons cs
      · exact (ih _).cons cs

theorem length_duplicates (A : NonTerminal) (g : Grammar) (css : List (List Char)) :
    (duplicates A g css).length + (g.insertMany (Line.rule A css).productions).productions.length =
      g.productions.length + css.length := by
  induction css generalizing g with
  | nil => simp [duplicates, Line.productions, Grammar.insertMany]
  | cons cs css ih =>
      have hrest := ih (g.insert A (Word.ofText cs))
      have hinsert := g.length_productions_insert A (Word.ofText cs)
      have hmany : g.insertMany (Line.rule A (cs :: css)).productions =
          (g.insert A (Word.ofText cs)).insertMany (Line.rule A css).productions := rfl
      rw [hmany, duplicates, List.length_cons]
      split <;> rename_i hproduces <;> simp only [hproduces, if_true, if_false] at hinsert
      · rw [List.length_cons]
        omega
      · omega

theorem lineNumber?_of_mem_events {l : Line} (h : e ∈ l.events g n) : e.lineNumber? = some n := by
  cases l with
  | rule A css =>
      obtain ⟨_, _, rfl⟩ := List.mem_map.mp h
      rfl
  | _ =>
      rw [List.mem_singleton.mp h]
      rfl

theorem Line.warnings_events (g : Grammar) (n : Nat) (l : Line) :
    (l.events g n).filter (·.level = .warn) = (l.longHead?.map (Event.longHead n)).toList := by
  cases l with
  | rule A css =>
      refine List.filter_eq_nil_iff.mpr fun e he => ?_
      obtain ⟨_, _, rfl⟩ := List.mem_map.mp he
      simp [Event.level]
  | _ => rfl

/-- **The balance of a line**: each alternative adds a rule or is reported. -/
theorem Line.balance (g : Grammar) (n : Nat) (l : Line) :
    (l.events g n).countP Event.isDuplicate + (g.insertMany l.productions).productions.length =
      g.productions.length + (l.rule?.toList.map (·.2.length)).sum := by
  cases l with
  | rule A css =>
      have hall : ∀ e ∈ (Line.rule A css).events g n, e.isDuplicate = true := by
        intro e he
        obtain ⟨_, _, rfl⟩ := List.mem_map.mp he
        rfl
      rw [List.countP_eq_length.mpr hall, Line.events, List.length_map, length_duplicates]
      rfl
  | _ => simp [Line.events, Line.productions, Line.rule?, Event.isDuplicate, Grammar.insertMany]

/-! ### All lines -/

theorem mem_lineEvents {ls : List Line} (h : e ∈ lineEvents g n ls) :
    ∃ (g' : Grammar) (i : Nat) (l : Line), ls[i]? = some l ∧ e ∈ l.events g' (n + i) := by
  induction ls generalizing g n with
  | nil => simp [lineEvents] at h
  | cons l ls ih =>
      rcases List.mem_append.mp h with h | h
      · exact ⟨g, 0, l, rfl, h⟩
      · obtain ⟨g', i, l', hl, he⟩ := ih h
        exact ⟨g', i + 1, l', hl, (by omega : n + 1 + i = n + (i + 1)) ▸ he⟩

/-- **The messages about a line** are those that it gives rise to after the lines before it. -/
theorem filter_lineEvents {ls : List Line} {l : Line} (h : ls[i]? = some l) :
    ∃ g', (lineEvents g n ls).filter (·.lineNumber? = some (n + i)) = l.events g' (n + i) := by
  induction ls generalizing g n i with
  | nil => simp at h
  | cons l₀ ls ih =>
      rw [lineEvents, List.filter_append]
      cases i with
      | zero =>
          obtain rfl : l₀ = l := by simpa using h
          -- the lines after it have greater numbers
          have hrest : (lineEvents (g.insertMany l₀.productions) (n + 1) ls).filter
              (·.lineNumber? = some (n + 0)) = [] := by
            refine List.filter_eq_nil_iff.mpr fun e he => ?_
            obtain ⟨_, j, _, _, hevents⟩ := mem_lineEvents he
            rw [lineNumber?_of_mem_events hevents]
            simp only [decide_eq_true_eq, Option.some.injEq]
            omega
          have hself : (l₀.events g n).filter (·.lineNumber? = some (n + 0)) = l₀.events g n :=
            List.filter_eq_self.mpr fun e he => by simp [lineNumber?_of_mem_events he]
          rw [hrest, hself, List.append_nil]
          exact ⟨g, rfl⟩
      | succ i =>
          have hself : (l₀.events g n).filter (·.lineNumber? = some (n + (i + 1))) = [] :=
            List.filter_eq_nil_iff.mpr fun e he => by simp [lineNumber?_of_mem_events he]
          obtain ⟨g', hrest⟩ := ih (g := g.insertMany l₀.productions) (n := n + 1)
            (by simpa using h : ls[i]? = some l)
          rw [hself, List.nil_append, (by omega : n + (i + 1) = n + 1 + i)]
          exact ⟨g', hrest⟩

theorem warnings_lineEvents (g : Grammar) (n : Nat) (ls : List Line) :
    (lineEvents g n ls).filter (·.level = .warn) =
      (ls.zipIdx n).filterMap fun p => p.1.longHead?.map (Event.longHead p.2) := by
  induction ls generalizing g n with
  | nil => rfl
  | cons l ls ih =>
      rw [lineEvents, List.filter_append, l.warnings_events, ih, List.zipIdx_cons,
        List.filterMap_cons]
      cases l.longHead? <;> rfl

theorem balance_lineEvents (g : Grammar) (n : Nat) (ls : List Line) :
    (lineEvents g n ls).countP Event.isDuplicate +
        (g.insertMany (ls.flatMap Line.productions)).productions.length =
      g.productions.length + ((ls.filterMap Line.rule?).map (·.2.length)).sum := by
  induction ls generalizing g n with
  | nil => simp [lineEvents, Grammar.insertMany]
  | cons l ls ih =>
      have hline := l.balance g n
      have hrest := ih (g.insertMany l.productions) (n + 1)
      have hsum : (((l :: ls).filterMap Line.rule?).map (·.2.length)).sum =
          (l.rule?.toList.map (·.2.length)).sum +
            ((ls.filterMap Line.rule?).map (·.2.length)).sum := by
        rw [List.filterMap_cons]
        cases l.rule? <;> simp
      rw [lineEvents, List.countP_append, List.flatMap_cons, Grammar.insertMany_append, hsum]
      omega

/-! ### Heads on several lines -/

theorem declarations_eq (ls : List Line) :
    declarations ls = .tally ((ls.filterMap Line.rule?).map Prod.fst) := by
  induction ls using List.reverseRec with
  | nil => rfl
  | append_singleton ls l ih =>
      have hstep : declarations (ls ++ [l]) = match l with
          | .rule A _ => (declarations ls).update A fun n => n.getD 0 + 1
          | _ => declarations ls := List.foldl_append
      rw [hstep, ih, List.filterMap_append, List.map_append]
      cases l with
      | rule A css => exact (OrderedMap.tally_concat _ A).symm
      | _ => exact congrArg OrderedMap.tally (List.append_nil _).symm

/-- Heads that are accepted on several lines, in the order of their first lines, each with the number of
its lines. -/
theorem mergeEvents_eq (ls : List Line) :
    let heads := (ls.filterMap Line.rule?).map Prod.fst
    mergeEvents ls =
      (heads.eraseDups.filter fun A => 2 ≤ heads.count A).map fun A => .merged A (heads.count A) := by
  intro heads
  unfold mergeEvents
  rw [declarations_eq, OrderedMap.entries_tally, List.filter_map, List.map_map]
  rfl

/-! ### Lines as they are written -/

/-- The lines of the normalized text, from the first that is not blank to the last. -/
def writtenLines (cs : List Char) : List (List Char) :=
  match Text.trim (normalize cs) with
  | [] => []
  | ds => (ds.splitOn '\n').map dropReturn

theorem lines_eq (cs : List Char) : lines cs = (writtenLines cs).map Line.read := by
  unfold lines writtenLines
  cases Text.trim (normalize cs) with
  | nil => rfl
  | cons d ds =>
      rw [List.map_map]
      rfl

/-- The head and the alternatives of a line that is accepted. -/
def accept? (l : List Char) : Option (NonTerminal × List (List Char)) := (Line.read l).rule?

/-- The head of a line that is passed over for its head. -/
def overlong? (l : List Char) : Option (List Char) := (Line.read l).longHead?

theorem filterMap_rule?_lines (cs : List Char) :
    (lines cs).filterMap Line.rule? = (writtenLines cs).filterMap accept? := by
  rw [lines_eq, List.filterMap_map]
  rfl

/-- How the messages `es` deal with the line `l` that has the number `n`: it is no rule, or its head is
not one character, and one message says so; or it is accepted, and the messages about it are on some of
its alternatives. -/
inductive Settled (es : List Event) (n : Nat) (l : List Char) : Prop
  | noArrow (hline : ¬ arrow <:+: l) (haccept : accept? l = none) (hlong : overlong? l = none)
      (hes : es.filter (·.lineNumber? = some n) = [.noArrow n])
  | emptyHead (u : List Char) (ps : List (List Char)) (hline : IsRule l u ps)
      (hhead : Text.trim u = []) (haccept : accept? l = none) (hlong : overlong? l = none)
      (hes : es.filter (·.lineNumber? = some n) = [.emptyHead n])
  | longHead (u : List Char) (ps : List (List Char)) (hline : IsRule l u ps)
      (hhead : 2 ≤ (Text.trim u).length) (haccept : accept? l = none)
      (hlong : overlong? l = some (Text.trim u))
      (hes : es.filter (·.lineNumber? = some n) = [.longHead n (Text.trim u)])
  | accepted (u : List Char) (ps : List (List Char)) (A : NonTerminal) (hline : IsRule l u ps)
      (hhead : Text.trim u = [A.char]) (haccept : accept? l = some (A, segments ps))
      (hlong : overlong? l = none)
      (hes : ∃ css : List (List Char), css.Sublist (segments ps) ∧
        es.filter (·.lineNumber? = some n) = css.map (.duplicate n A))

theorem settled_of_events {es : List Event}
    (h : es.filter (·.lineNumber? = some n) = (Line.read l).events g n) : Settled es n l := by
  cases hsplit : splitRule? l with
  | none =>
      have hread : Line.read l = .noArrow := by rw [Line.read, hsplit]
      rw [hread] at h
      exact .noArrow (splitRule?_eq_none_iff.mp hsplit) (congrArg Line.rule? hread)
        (congrArg Line.longHead? hread) h
  | some p =>
      obtain ⟨head, ss⟩ := p
      obtain ⟨u, ps, hline, rfl, rfl⟩ := splitRule?_eq_some_iff.mp hsplit
      -- the line is a rule if its head is one character, not none and not more
      rcases hhead : Text.trim u with _ | ⟨c, _ | ⟨d, cs⟩⟩
      · have hread : Line.read l = .emptyHead := by rw [Line.read, hsplit, hhead]
        rw [hread] at h
        exact .emptyHead u ps hline hhead (congrArg Line.rule? hread)
          (congrArg Line.longHead? hread) h
      · have hread : Line.read l = .rule ⟨c⟩ (segments ps) := by rw [Line.read, hsplit, hhead]
        rw [hread] at h
        exact .accepted u ps ⟨c⟩ hline hhead (congrArg Line.rule? hread)
          (congrArg Line.longHead? hread) ⟨_, sublist_duplicates ⟨c⟩ g _, h⟩
      · have hread : Line.read l = .longHead (Text.trim u) := by rw [Line.read, hsplit, hhead]
        rw [hread] at h
        exact .longHead u ps hline (by simp [hhead]) (congrArg Line.rule? hread)
          (congrArg Line.longHead? hread) h

end RuleText

/-! ### The diagnosis of a text -/

namespace Grammar

open RuleText

variable {text : String} {i : Nat} {l : List Char}

theorem filter_diagnose (text : String) (n : Nat) :
    (diagnose text).filter (·.lineNumber? = some n) =
      (lineEvents empty 1 (lines text.toList)).filter (·.lineNumber? = some n) := by
  have hmerges : (mergeEvents (lines text.toList)).filter (·.lineNumber? = some n) = [] := by
    refine List.filter_eq_nil_iff.mpr fun e he => ?_
    obtain ⟨_, _, rfl⟩ := List.mem_map.mp he
    simp [Event.lineNumber?]
  unfold diagnose
  rw [List.filter_append, hmerges, List.append_nil]

theorem settled_diagnose (h : (writtenLines text.toList)[i]? = some l) :
    Settled (diagnose text) (i + 1) l := by
  have hread : (lines text.toList)[i]? = some (Line.read l) := by
    rw [lines_eq, List.getElem?_map, h]
    rfl
  obtain ⟨g, hes⟩ := filter_lineEvents (g := empty) (n := 1) hread
  rw [← filter_diagnose, Nat.add_comm 1 i] at hes
  exact settled_of_events hes

theorem balance_diagnose (text : String) :
    (((writtenLines text.toList).filterMap accept?).map (·.2.length)).sum =
      (parse text).productions.length + (diagnose text).countP Event.isDuplicate := by
  have hlines := balance_lineEvents empty 1 (lines text.toList)
  have hmerges : (mergeEvents (lines text.toList)).countP Event.isDuplicate = 0 := by
    refine List.countP_eq_zero.mpr fun e he => ?_
    obtain ⟨_, _, rfl⟩ := List.mem_map.mp he
    simp [Event.isDuplicate]
  have hempty : empty.productions.length = 0 := rfl
  rw [filterMap_rule?_lines, hempty, Nat.zero_add] at hlines
  unfold diagnose parse
  rw [List.countP_append, hmerges, Nat.add_zero, ← hlines, Nat.add_comm]
  rfl

/-- Warnings are on heads that are too long, line by line, and then on heads of several lines. -/
theorem warnings_diagnose (text : String) :
    let ls := writtenLines text.toList
    let heads := (ls.filterMap accept?).map Prod.fst
    (diagnose text).filter (·.level = .warn) =
      ((ls.zipIdx 1).filterMap fun p => (overlong? p.1).map (Event.longHead p.2)) ++
        (heads.eraseDups.filter fun A => 2 ≤ heads.count A).map fun A =>
          .merged A (heads.count A) := by
  intro ls heads
  have hmerges : (mergeEvents (lines text.toList)).filter (·.level = .warn) =
      mergeEvents (lines text.toList) := by
    refine List.filter_eq_self.mpr fun e he => ?_
    obtain ⟨_, _, rfl⟩ := List.mem_map.mp he
    rfl
  unfold diagnose
  rw [List.filter_append, hmerges, mergeEvents_eq, filterMap_rule?_lines, warnings_lineEvents, lines_eq,
    List.zipIdx_map, List.filterMap_map]
  rfl

/-- **A diagnosis accounts for every line and every alternative.** -/
theorem diagnose_accounts (text : String) :
    let ls := writtenLines text.toList
    let heads := (ls.filterMap accept?).map Prod.fst
    let merges := (heads.eraseDups.filter fun A => 2 ≤ heads.count A).map fun A =>
      Event.merged A (heads.count A)
    (∃ reports, diagnose text = reports ++ merges ∧
      ∀ e ∈ reports, ∃ n, 1 ≤ n ∧ n ≤ ls.length ∧ e.lineNumber? = some n) ∧
    (diagnose text).filter (·.level = .warn) =
      ((ls.zipIdx 1).filterMap fun p => (overlong? p.1).map (Event.longHead p.2)) ++ merges ∧
    (∀ i l, ls[i]? = some l → Settled (diagnose text) (i + 1) l) ∧
    ((ls.filterMap accept?).map (·.2.length)).sum =
      (parse text).productions.length + (diagnose text).countP Event.isDuplicate := by
  intro ls heads merges
  have hmerges := mergeEvents_eq (lines text.toList)
  rw [filterMap_rule?_lines] at hmerges
  refine ⟨⟨lineEvents empty 1 (lines text.toList), ?_, fun e he => ?_⟩, warnings_diagnose text,
    fun i l => settled_diagnose, balance_diagnose text⟩
  · rw [diagnose, hmerges]
  · obtain ⟨g, i, l, hl, hevents⟩ := mem_lineEvents he
    have hi : i < ls.length := by
      obtain ⟨hi, _⟩ := List.getElem?_eq_some_iff.mp hl
      rwa [lines_eq, List.length_map] at hi
    exact ⟨1 + i, by omega, by omega, lineNumber?_of_mem_events hevents⟩

/-- Seven lines after a blank one.  Three of the six alternatives are reported, and two heads are
declared on two lines each, `T` first and with no alternative on its first line. -/
theorem diagnose_all_kinds :
    let text := " \nT -> | |\r\nS → a | ε | a\nno rule\n -> d\nAB -> c\nS->ε\nT -> S |S"
    (writtenLines text.toList)[4]? = some "AB -> c".toList ∧
      Settled (diagnose text) 5 "AB -> c".toList ∧
      (∃ reports, diagnose text = reports ++ [.merged ⟨'T'⟩ 2, .merged ⟨'S'⟩ 2] ∧
        ∀ e ∈ reports, ∃ n, 1 ≤ n ∧ n ≤ 7 ∧ e.lineNumber? = some n) ∧
      (diagnose text).filter (·.level = .warn) =
        [.longHead 5 "AB".toList, .merged ⟨'T'⟩ 2, .merged ⟨'S'⟩ 2] ∧
      (parse text).productions.length = 3 ∧ (diagnose text).countP Event.isDuplicate = 3 ∧
      6 = (parse text).productions.length + (diagnose text).countP Event.isDuplicate := by
  intro text
  obtain ⟨⟨reports, hes, hreports⟩, hwarnings, hsettled, hbalance⟩ := diagnose_accounts text
  have hline : (writtenLines text.toList)[4]? = some "AB -> c".toList := by decide +kernel
  have hlength : (writtenLines text.toList).length = 7 := by decide +kernel
  have hsum : (((writtenLines text.toList).filterMap accept?).map (·.2.length)).sum = 6 := by
    decide +kernel
  have hheads : ((writtenLines text.toList).filterMap accept?).map Prod.fst =
      [⟨'T'⟩, ⟨'S'⟩, ⟨'S'⟩, ⟨'T'⟩] := by decide +kernel
  have hlong : ((writtenLines text.toList).zipIdx 1).map (fun p => (overlong? p.1, p.2)) =
      [(none, 1), (none, 2), (none, 3), (none, 4), (some "AB".toList, 5), (none, 6), (none, 7)] := by
    decide +kernel
  rw [hheads] at hes hwarnings
  rw [hlength] at hreports
  have hlongHeads : ((writtenLines text.toList).zipIdx 1).filterMap (fun p =>
      (overlong? p.1).map (Event.longHead p.2)) = [.longHead 5 "AB".toList] := by
    have hmap := List.filterMap_map (l := (writtenLines text.toList).zipIdx 1)
      (f := fun p => (overlong? p.1, p.2)) (g := fun q => q.1.map (Event.longHead q.2))
    exact hmap.symm.trans (congrArg _ hlong)
  rw [hlongHeads] at hwarnings
  exact ⟨hline, hsettled 4 _ hline, ⟨reports, hes, hreports⟩, hwarnings, by decide +kernel,
    by decide +kernel, hsum ▸ hbalance⟩

end Grammar

end GrammarComparison
