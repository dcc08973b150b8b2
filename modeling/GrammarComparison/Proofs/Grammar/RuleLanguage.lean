import GrammarComparison.Proofs.Grammar.FirstOccurrence
import GrammarComparison.Proofs.Grammar.LineByLine

/-! # The rule language

What rule text says, without reference to how it is read.  A line with an arrow is a rule in exactly
one way (`IsRule`): a text without arrow, the arrow, and pieces without bars that have bars between
them.  What the reader makes of a line is its first text and its pieces, trimmed and blank pieces left
out (`splitRule?_eq_some_iff`); a line without arrow is no rule (`splitRule?_eq_none_iff`).

A rule contributes to a grammar if its head is one character and not all of its pieces are blank
(`contribution?_eq_some_iff`); any other line contributes nothing (`contribution?_eq_none_iff`).  A
text declares the contributions of its lines in order (`productions_eq_contributions`), and the
grammar keeps the first occurrence of each head and of each production of a head. -/

namespace GrammarComparison

namespace RuleText

variable {l u : List Char} {ps : List (List Char)} {A : NonTerminal} {w : Word} {ws : List Word}

/-! ### Lines that are rules -/

/-- The line is `u`, an arrow and the pieces `ps` with bars between them, and this arrow is its
first. -/
structure IsRule (l u : List Char) (ps : List (List Char)) : Prop where
  line : l = u ++ arrow ++ ['|'].intercalate ps
  first : ¬ arrow <:+: u
  ne_nil : ps ≠ []
  plain : ∀ p ∈ ps, '|' ∉ p

/-- What is left of pieces when they are trimmed, blank ones left out. -/
def segments (ps : List (List Char)) : List (List Char) := (ps.map Text.trim).filter (· ≠ [])

theorem isRule_iff : IsRule l u ps ↔ ∃ v, splitArrow? l = some (u, v) ∧ v.splitOn '|' = ps := by
  constructor
  · intro h
    refine ⟨['|'].intercalate ps, splitArrow?_eq_some_iff.mpr ⟨?_, h.first⟩,
      List.splitOn_intercalate '|' h.plain h.ne_nil⟩
    rw [h.line, List.append_assoc]
    rfl
  · rintro ⟨v, hsplit, rfl⟩
    obtain ⟨rfl, hfirst⟩ := splitArrow?_eq_some_iff.mp hsplit
    refine ⟨?_, hfirst, List.splitOn_ne_nil '|' v,
      fun p hp hbar => (mem_of_mem_splitOn hp hbar).2 rfl⟩
    rw [List.intercalate_splitOn, List.append_assoc]
    rfl

theorem exists_isRule_iff : (∃ u ps, IsRule l u ps) ↔ arrow <:+: l := by
  constructor
  · rintro ⟨u, ps, hrule⟩
    exact ⟨u, ['|'].intercalate ps, hrule.line.symm⟩
  · intro harrow
    obtain ⟨⟨u, v⟩, hsplit⟩ := Option.ne_none_iff_exists'.mp
      (mt splitArrow?_eq_none_iff.mp (not_not.mpr harrow))
    exact ⟨u, v.splitOn '|', isRule_iff.mpr ⟨v, hsplit, rfl⟩⟩

theorem splitRule?_eq_none_iff : splitRule? l = none ↔ ¬ arrow <:+: l := by
  unfold splitRule?
  rw [Option.map_eq_none_iff, splitArrow?_eq_none_iff]

theorem splitRule?_eq_some_iff {head : List Char} {ss : List (List Char)} :
    splitRule? l = some (head, ss) ↔
      ∃ u ps, IsRule l u ps ∧ head = Text.trim u ∧ ss = segments ps := by
  unfold splitRule?
  rw [Option.map_eq_some_iff]
  constructor
  · rintro ⟨⟨u, v⟩, hsplit, hread⟩
    obtain ⟨rfl, rfl⟩ := Prod.mk.inj hread
    exact ⟨u, v.splitOn '|', isRule_iff.mpr ⟨v, hsplit, rfl⟩, rfl, rfl⟩
  · rintro ⟨u, ps, hrule, rfl, rfl⟩
    obtain ⟨v, hsplit, rfl⟩ := isRule_iff.mp hrule
    exact ⟨(u, v), hsplit, rfl⟩

theorem read_eq_rule_iff {ss : List (List Char)} : Line.read l = .rule A ss ↔
    ∃ u ps, IsRule l u ps ∧ Text.trim u = [A.char] ∧ ss = segments ps := by
  constructor
  · intro h
    obtain ⟨u, v, hsplit, hhead, rfl⟩ := Line.read_eq_rule h
    exact ⟨u, v.splitOn '|', isRule_iff.mpr ⟨v, hsplit, rfl⟩, hhead, rfl⟩
  · rintro ⟨u, ps, hrule, hhead, rfl⟩
    unfold Line.read
    rw [splitRule?_eq_some_iff.mpr ⟨u, ps, hrule, hhead.symm, rfl⟩]

/-! ### What a line contributes -/

/-- The head that a line gives productions, with these productions in order; `none` if it gives
none. -/
def contribution? (l : List Char) : Option (NonTerminal × List Word) :=
  match splitRule? l with
  | some ([c], s :: ss) => some (⟨c⟩, (s :: ss).map Word.ofText)
  | _ => none

/-- The contributions of the lines of a text, in order. -/
def contributions (cs : List Char) : List (NonTerminal × List Word) :=
  ((normalize cs).splitOn '\n').filterMap contribution?

theorem contribution?_eq_some_iff : contribution? l = some (A, ws) ↔
    ws ≠ [] ∧ ∃ u ps, IsRule l u ps ∧ Text.trim u = [A.char] ∧
      ws = (segments ps).map Word.ofText := by
  constructor
  · intro h
    unfold contribution? at h
    split at h
    · rename_i c s ss hsplit
      obtain ⟨rfl, rfl⟩ := Prod.mk.inj (Option.some.inj h)
      obtain ⟨u, ps, hrule, hhead, hss⟩ := splitRule?_eq_some_iff.mp hsplit
      exact ⟨by simp, u, ps, hrule, hhead.symm, congrArg _ hss⟩
    · simp at h
  · rintro ⟨hne, u, ps, hrule, hhead, rfl⟩
    have hsplit := splitRule?_eq_some_iff.mpr ⟨u, ps, hrule, hhead.symm, rfl⟩
    unfold contribution?
    rw [hsplit]
    cases hss : segments ps with
    | nil => simp [hss] at hne
    | cons s ss => rfl

/-- No arrow, a head that is not one character, or nothing but blank pieces: such a line contributes
nothing. -/
theorem contribution?_eq_none_iff : contribution? l = none ↔
    ¬ arrow <:+: l ∨
      ∃ u ps, IsRule l u ps ∧ ((Text.trim u).length ≠ 1 ∨ segments ps = []) := by
  constructor
  · intro hnone
    by_cases harrow : arrow <:+: l
    · obtain ⟨u, ps, hrule⟩ := exists_isRule_iff.mpr harrow
      refine .inr ⟨u, ps, hrule, ?_⟩
      by_contra hnot
      obtain ⟨hlength, hne⟩ := not_or.mp hnot
      obtain ⟨c, hc⟩ := List.length_eq_one_iff.mp (not_not.mp hlength)
      have hsome : contribution? l = some (⟨c⟩, (segments ps).map Word.ofText) :=
        contribution?_eq_some_iff.mpr ⟨by simpa using hne, u, ps, hrule, hc, rfl⟩
      simp [hnone] at hsome
    · exact .inl harrow
  · rintro (harrow | ⟨u, ps, hrule, hblank⟩)
    · unfold contribution?
      rw [splitRule?_eq_none_iff.mpr harrow]
    · have hsplit := splitRule?_eq_some_iff.mpr ⟨u, ps, hrule, rfl, rfl⟩
      unfold contribution?
      rw [hsplit]
      split
      · rename_i c s ss heq
        obtain ⟨hhead, hss⟩ := Prod.mk.inj (Option.some.inj heq)
        simp [hhead, hss] at hblank
      · rfl

theorem productions_read (l : List Char) :
    (Line.read l).productions =
      (contribution? l).toList.flatMap fun e => e.2.map (e.1, ·) := by
  unfold Line.read contribution?
  rcases splitRule? l with _ | ⟨_ | ⟨c, _ | ⟨d, cs⟩⟩, _ | ⟨s, ss⟩⟩ <;> simp [Line.productions]

/-- **A text declares the contributions of its lines**, in order. -/
theorem productions_eq_contributions (cs : List Char) :
    productions cs = (contributions cs).flatMap fun e => e.2.map (e.1, ·) := by
  unfold contributions
  rw [productions_eq_lineProductions, lineProductions, List.filterMap_eq_flatMap_toList,
    List.flatMap_assoc]
  exact List.flatMap_congr fun l _ => productions_read l

end RuleText

/-! ### The grammar of a text -/

namespace Grammar

open RuleText

theorem produces_parse_iff (text : String) (A : NonTerminal) (w : Word) :
    (parse text).Produces A w ↔ ∃ l ∈ (normalize text.toList).splitOn '\n',
      ∃ u ps, IsRule l u ps ∧ Text.trim u = [A.char] ∧ ∃ s ∈ segments ps, w = Word.ofText s := by
  unfold parse
  rw [produces_ofProductions, productions_eq_lineProductions, lineProductions, List.mem_flatMap]
  refine exists_congr fun l => and_congr_right fun _ => ?_
  constructor
  · intro h
    obtain ⟨ss, hread, s, hs, hw⟩ := Line.mem_productions h
    obtain ⟨u, ps, hrule, hhead, rfl⟩ := read_eq_rule_iff.mp hread
    exact ⟨u, ps, hrule, hhead, s, hs, hw⟩
  · rintro ⟨u, ps, hrule, hhead, s, hs, rfl⟩
    rw [read_eq_rule_iff.mpr ⟨u, ps, hrule, hhead, rfl⟩]
    exact List.mem_map_of_mem hs

theorem heads_parse (text : String) :
    (parse text).heads = ((contributions text.toList).map Prod.fst).eraseDups := by
  unfold parse
  rw [heads_ofProductions, productions_eq_contributions, List.map_flatMap]
  refine eraseDups_flatMap fun e he => ?_
  obtain ⟨l, _, hl⟩ := List.mem_filterMap.mp he
  obtain ⟨hne, _⟩ := contribution?_eq_some_iff.mp hl
  refine ⟨by simpa using hne, ?_⟩
  intro A hA
  rw [List.map_map, List.mem_map] at hA
  obtain ⟨_, _, rfl⟩ := hA
  rfl

theorem alternatives_parse (text : String) (A : NonTerminal) :
    (parse text).alternatives A =
      (((contributions text.toList).filter fun e => e.1 = A).flatMap Prod.snd).eraseDups := by
  unfold parse
  rw [alternatives_ofProductions, productions_eq_contributions]
  refine congrArg _ ?_
  induction contributions text.toList with
  | nil => rfl
  | cons e es ih =>
      rw [List.flatMap_cons, List.filter_append, List.map_append, ih, List.filter_cons]
      by_cases hA : e.1 = A
      · have hkeep : (e.2.map (e.1, ·)).filter (fun p => p.1 = A) = e.2.map (e.1, ·) :=
          List.filter_eq_self.mpr (by simp [hA])
        rw [hkeep]
        simp [hA, Function.comp_def]
      · have hdrop : (e.2.map (e.1, ·)).filter (fun p => p.1 = A) = [] :=
          List.filter_eq_nil_iff.mpr (by simp [hA])
        rw [hdrop]
        simp [hA]

/-- **The reader reads exactly the rule language**, and keeps the order of first occurrence. -/
theorem parse_reads_rule_language :
    (∀ l, (splitRule? l = none ↔ ¬ arrow <:+: l) ∧
      ∀ head ss, splitRule? l = some (head, ss) ↔
        ∃ u ps, IsRule l u ps ∧ head = Text.trim u ∧ ss = segments ps) ∧
    (∀ l, (contribution? l = none ↔ ¬ arrow <:+: l ∨
        ∃ u ps, IsRule l u ps ∧ ((Text.trim u).length ≠ 1 ∨ segments ps = [])) ∧
      ∀ A ws, contribution? l = some (A, ws) ↔ ws ≠ [] ∧
        ∃ u ps, IsRule l u ps ∧ Text.trim u = [A.char] ∧ ws = (segments ps).map Word.ofText) ∧
    ∀ text : String,
      (∀ A w, (parse text).Produces A w ↔ ∃ l ∈ (normalize text.toList).splitOn '\n',
        ∃ u ps, IsRule l u ps ∧ Text.trim u = [A.char] ∧
          ∃ s ∈ segments ps, w = Word.ofText s) ∧
      (parse text).heads = ((contributions text.toList).map Prod.fst).eraseDups ∧
      ∀ A, (parse text).alternatives A =
        (((contributions text.toList).filter fun e => e.1 = A).flatMap Prod.snd).eraseDups := by
  refine ⟨fun l => ⟨splitRule?_eq_none_iff, fun _ _ => splitRule?_eq_some_iff⟩,
    fun l => ⟨contribution?_eq_none_iff, fun _ _ => contribution?_eq_some_iff⟩, fun text => ?_⟩
  exact ⟨produces_parse_iff text, heads_parse text, alternatives_parse text⟩

/-- Rules for one head on two lines, an arrow within an alternative, and lines that contribute
nothing: blank pieces only, no arrow, no head, a head of two characters. -/
example :
    (parse "T -> | |\r\n S → a->b || ε\r\nno rule\n -> d\nAB -> c\nA->S\nS -> c | a->b").table =
      [(⟨'S'⟩, [Word.ofText ['a', '-', '>', 'b'], Word.epsilon, Word.ofText ['c']]),
        (⟨'A'⟩, [[.nonTerminal ⟨'S'⟩]])] := by decide +kernel

end Grammar

end GrammarComparison
