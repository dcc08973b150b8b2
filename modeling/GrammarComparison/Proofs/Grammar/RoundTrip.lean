import GrammarComparison.Proofs.Grammar.RuleText
import GrammarComparison.Proofs.Grammar.Table

/-! # Printing and reading back

Which grammars are read back as they were printed.  A grammar is `Canonical` if rule text can say it:
no character of it is one that the reader takes for something else, and each symbol is of the kind
that its character is read as.  Whatever is read is canonical (`canonical_parse`), and a canonical
grammar comes back from its own text unchanged, heads and productions in order (`parse_render`).  So
a grammar that comes back with its rules, in whatever order, was canonical.

The text of a grammar is a line for each head (`toList_render`).  A line is read back as the rule
that it was printed from (`Line.read_printLine`), lines are read one by one (`lines_flatMap`), and
what they declare are the rules of the table, which build the grammar again. -/

namespace GrammarComparison

open RuleText (IsGlyph)

/-! ### Canonical grammars -/

/-- A production that rule text can say: no bar ends it, no line break and no white space at its ends
is lost, and its characters say what its symbols are. -/
structure Word.Canonical (w : Word) : Prop where
  trimmed : Text.Trimmed w.chars
  plain : ∀ c ∈ w.chars, c ≠ '|' ∧ c ≠ '\n' ∧ ¬ IsGlyph c
  tagged : ∀ s ∈ w, Symbol.classify s.char = s

/-- A grammar that rule text can say: its heads are not trimmed away or written otherwise, and its
productions are canonical. -/
structure Grammar.Canonical (g : Grammar) : Prop where
  head : ∀ A ∈ g.heads, Text.isBlank A.char = false ∧ ¬ IsGlyph A.char
  production : ∀ A w, g.Produces A w → w.Canonical

variable {g h : Grammar} {A : NonTerminal} {w : Word}

theorem Word.canonical_iff : w.Canonical ↔ Text.Trimmed w.chars ∧
    (∀ c ∈ w.chars, c ≠ '|' ∧ c ≠ '\n' ∧ ¬ IsGlyph c) ∧ ∀ s ∈ w, Symbol.classify s.char = s :=
  ⟨fun h => ⟨h.trimmed, h.plain, h.tagged⟩, fun h => ⟨h.1, h.2.1, h.2.2⟩⟩

instance (w : Word) : Decidable w.Canonical :=
  haveI : Decidable (∀ c ∈ w.chars, c ≠ '|' ∧ c ≠ '\n' ∧ ¬ IsGlyph c) := List.decidableBAll _ _
  decidable_of_iff _ Word.canonical_iff.symm

theorem Grammar.canonical_iff : g.Canonical ↔
    (∀ A ∈ g.heads, Text.isBlank A.char = false ∧ ¬ IsGlyph A.char) ∧
      ∀ p ∈ g.productions, p.2.Canonical := by
  constructor
  · intro h
    exact ⟨h.head, forall_produces_iff.mp h.production⟩
  · intro h
    exact ⟨h.1, forall_produces_iff.mpr h.2⟩

instance (g : Grammar) : Decidable g.Canonical := decidable_of_iff _ Grammar.canonical_iff.symm

theorem Grammar.SameRules.canonical (e : g.SameRules h) (hg : g.Canonical) : h.Canonical where
  head A hA := by
    obtain ⟨w, hw⟩ := mem_heads_iff.mp hA
    exact hg.head A (mem_heads_iff.mpr ⟨w, (e A w).mpr hw⟩)
  production A w hw := hg.production A w ((e A w).mpr hw)

/-! ### Words and their texts -/

theorem Word.chars_ofText (cs : List Char) : chars (ofText cs) = cs := by
  have hself : ∀ c ∈ cs, (Symbol.char ∘ Symbol.classify) c = id c :=
    fun c _ => Symbol.char_classify c
  unfold chars ofText
  rw [List.map_map, List.map_congr_left hself, List.map_id]

theorem Word.Canonical.ofText_chars (hw : w.Canonical) : Word.ofText w.chars = w := by
  have hself : ∀ s ∈ w, (Symbol.classify ∘ Symbol.char) s = id s := hw.tagged
  unfold Word.ofText Word.chars
  rw [List.map_map, List.map_congr_left hself, List.map_id]

/-! ### What is read is canonical -/

namespace RuleText

variable {cs : List Char}

theorem head_of_mem_productions (h : (A, w) ∈ productions cs) :
    Text.isBlank A.char = false ∧ ¬ IsGlyph A.char := by
  obtain ⟨l, css, ds, hl, hread, _, _⟩ := exists_line_of_mem_productions h
  obtain ⟨u, v, harrow, hhead, _⟩ := Line.read_eq_rule hread
  have hmem : A.char ∈ Text.trim u := by
    rw [hhead]
    exact List.mem_singleton_self _
  have hline : A.char ∈ l := by
    rw [eq_of_splitArrow? harrow]
    exact List.mem_append_left _ (Text.mem_of_mem_trim hmem)
  have htrimmed : Text.Trimmed (Text.trim u) := Text.trimmed_trim (List.ne_nil_of_mem hmem)
  rw [hhead, Text.trimmed_singleton] at htrimmed
  exact ⟨htrimmed, not_glyph_of_mem_normalize (hl _ hline).1⟩

theorem canonical_of_mem_productions (h : (A, w) ∈ productions cs) : w.Canonical := by
  obtain ⟨l, css, ds, hl, hread, hds, rfl⟩ := exists_line_of_mem_productions h
  obtain ⟨u, v, harrow, _, rfl⟩ := Line.read_eq_rule hread
  obtain ⟨htrimmed, es, hes, rfl⟩ := exists_of_mem_splitBars hds
  constructor
  · rw [Word.chars_ofText]
    exact htrimmed
  · intro c hc
    rw [Word.chars_ofText] at hc
    obtain ⟨hv, hbar⟩ := mem_of_mem_splitOn hes (Text.mem_of_mem_trim hc)
    have hline : c ∈ l := by
      rw [eq_of_splitArrow? harrow]
      exact List.mem_append_right _ (List.mem_cons_of_mem _ (List.mem_cons_of_mem _ hv))
    exact ⟨hbar, (hl c hline).2, not_glyph_of_mem_normalize (hl c hline).1⟩
  · intro s hs
    obtain ⟨c, _, rfl⟩ := List.mem_map.mp hs
    rw [Symbol.char_classify]

end RuleText

theorem Grammar.canonical_parse (text : String) : (parse text).Canonical where
  head A hA := by
    obtain ⟨w, hw⟩ := mem_heads_iff.mp hA
    exact RuleText.head_of_mem_productions (produces_ofProductions.mp hw)
  production A w hw := RuleText.canonical_of_mem_productions (produces_ofProductions.mp hw)

/-! ### What is printed is read back -/

namespace RuleText

variable {css ls : List (List Char)} {cs : List Char}

/-- A head and its alternatives as they are printed, without the line break. -/
def printLine (A : NonTerminal) (css : List (List Char)) : List Char :=
  A.char :: ' ' :: '-' :: '>' :: ' ' :: List.intercalate [' ', '|', ' '] css

theorem isBlank_of_mem_blank : ∀ c ∈ [' '], Text.isBlank c = true :=
  List.forall_mem_singleton.mpr (by decide)

theorem splitBars_padded {us vs : List Char} (h : Text.Trimmed cs) (hbar : '|' ∉ cs)
    (hus : ∀ c ∈ us, Text.isBlank c = true) (hvs : ∀ c ∈ vs, Text.isBlank c = true) :
    splitBars (us ++ (cs ++ vs)) = [cs] := by
  have htrim : Text.trim (us ++ (cs ++ vs)) = cs := Text.trim_padded h hus hvs
  have hblank : ¬ Text.isBlank '|' = true := by decide
  have hnot : '|' ∉ us ++ (cs ++ vs) := by
    simp only [List.mem_append, not_or]
    exact ⟨fun hmem => hblank (hus _ hmem), hbar, fun hmem => hblank (hvs _ hmem)⟩
  have hne : Text.trim (us ++ (cs ++ vs)) ≠ [] := by
    rw [htrim]
    exact h.1
  rw [splitBars_of_not_mem hnot hne, htrim]

/-- What stands after the arrow of a printed line: the blanks around the bars are trimmed away. -/
theorem splitBars_intercalate (hne : css ≠ []) (h : ∀ cs ∈ css, Text.Trimmed cs ∧ '|' ∉ cs) :
    splitBars (' ' :: List.intercalate [' ', '|', ' '] css) = css := by
  induction css with
  | nil => exact absurd rfl hne
  | cons cs css ih =>
      obtain ⟨htrimmed, hbar⟩ := h cs List.mem_cons_self
      cases css with
      | nil =>
          have hlast := splitBars_padded htrimmed hbar isBlank_of_mem_blank (List.forall_mem_nil _)
          rw [List.append_nil] at hlast
          rwa [List.intercalate_singleton]
      | cons ds css =>
          have hfirst : splitBars (' ' :: (cs ++ [' '])) = [cs] :=
            splitBars_padded htrimmed hbar isBlank_of_mem_blank isBlank_of_mem_blank
          have hrest := ih (by simp) fun es hes => h es (List.mem_cons_of_mem cs hes)
          have hsplit : ' ' :: List.intercalate [' ', '|', ' '] (cs :: ds :: css) =
              (' ' :: (cs ++ [' '])) ++
                '|' :: ' ' :: List.intercalate [' ', '|', ' '] (ds :: css) := by
            simp [List.intercalate_cons_cons]
          rw [hsplit, splitBars_append_cons, hfirst, hrest]
          rfl

/-- A printed line is read back, be its head `-`, `>` or a bar. -/
theorem Line.read_printLine (hA : Text.isBlank A.char = false) (hne : css ≠ [])
    (h : ∀ cs ∈ css, Text.Trimmed cs ∧ '|' ∉ cs) : Line.read (printLine A css) = .rule A css := by
  have harrow : splitArrow? (printLine A css) =
      some ([A.char, ' '], ' ' :: List.intercalate [' ', '|', ' '] css) := by
    simp [printLine, splitArrow?]
  have hhead : Text.trim [A.char, ' '] = [A.char] :=
    Text.trim_padded (Text.trimmed_singleton.mpr hA) (List.forall_mem_nil _) isBlank_of_mem_blank
  unfold Line.read splitRule?
  rw [harrow, Option.map_some]
  dsimp only
  rw [hhead, splitBars_intercalate hne h]

theorem trimmed_printLine (hA : Text.isBlank A.char = false) (hne : css ≠ [])
    (h : ∀ cs ∈ css, Text.Trimmed cs) : Text.Trimmed (printLine A css) :=
  (Text.trimmed_singleton.mpr hA).append (Text.Trimmed.intercalate hne h _) [' ', '-', '>', ' ']

theorem forall_mem_intercalate {P : Char → Prop} {us : List Char} (hus : ∀ c ∈ us, P c)
    (h : ∀ cs ∈ css, ∀ c ∈ cs, P c) : ∀ c ∈ us.intercalate css, P c := by
  induction css with
  | nil => simp
  | cons cs css ih =>
      have hcs := h cs List.mem_cons_self
      have hrest := ih fun ds hds => h ds (List.mem_cons_of_mem cs hds)
      cases css with
      | nil => simpa using hcs
      | cons ds css =>
          rw [List.intercalate_cons_cons]
          simp only [List.forall_mem_append]
          exact ⟨⟨hcs, hus⟩, hrest⟩

theorem forall_mem_printLine (hA : A.char ≠ '\n' ∧ ¬ IsGlyph A.char)
    (h : ∀ cs ∈ css, ∀ c ∈ cs, c ≠ '\n' ∧ ¬ IsGlyph c) :
    ∀ c ∈ printLine A css, c ≠ '\n' ∧ ¬ IsGlyph c := by
  have hblank : ' ' ≠ '\n' ∧ ¬ IsGlyph ' ' := by decide
  have hbar : ∀ c ∈ [' ', '|', ' '], c ≠ '\n' ∧ ¬ IsGlyph c := by
    simp only [List.forall_mem_cons]
    exact ⟨hblank, by decide, hblank, List.forall_mem_nil _⟩
  simp only [printLine, List.forall_mem_cons]
  exact ⟨hA, hblank, by decide, by decide, hblank, forall_mem_intercalate hbar h⟩

theorem dropReturn_eq_self (h : Text.Trimmed cs) : dropReturn cs = cs := by
  unfold dropReturn
  rw [if_neg]
  intro hlast
  exact Text.ne_of_not_isBlank (h.2.2 '\r' hlast) (by decide) rfl

theorem lines_of_trim (hne : Text.trim (normalize cs) ≠ []) :
    lines cs = ((Text.trim (normalize cs)).splitOn '\n').map fun l => Line.read (dropReturn l) := by
  unfold lines
  split
  · contradiction
  · rfl

theorem flatMap_append_eq (hne : ls ≠ []) (us : List Char) :
    ls.flatMap (· ++ us) = us.intercalate ls ++ us := by
  induction ls with
  | nil => exact absurd rfl hne
  | cons l ls ih =>
      cases ls with
      | nil => simp
      | cons l' ls =>
          rw [List.flatMap_cons, ih (by simp), List.intercalate_cons_cons]
          simp

/-- Lines that end with line breaks are read one by one; the last line break is trimmed away. -/
theorem lines_flatMap (htrimmed : ∀ l ∈ ls, Text.Trimmed l)
    (hplain : ∀ l ∈ ls, ∀ c ∈ l, c ≠ '\n' ∧ ¬ IsGlyph c) :
    lines (ls.flatMap (· ++ ['\n'])) = ls.map Line.read := by
  by_cases hne : ls = []
  · rw [hne]
    rfl
  have hglyph : ∀ c ∈ ls.flatMap (· ++ ['\n']), ¬ IsGlyph c := by
    intro c hc
    obtain ⟨l, hl, hc⟩ := List.mem_flatMap.mp hc
    rcases List.mem_append.mp hc with hc | hc
    · exact (hplain l hl c hc).2
    · rw [List.mem_singleton.mp hc]
      decide
  have hjoined : Text.Trimmed (List.intercalate ['\n'] ls) :=
    Text.Trimmed.intercalate hne htrimmed _
  have htrim : Text.trim (normalize (ls.flatMap (· ++ ['\n']))) = List.intercalate ['\n'] ls := by
    rw [normalize_eq_self hglyph, flatMap_append_eq hne]
    exact Text.trim_padded hjoined (List.forall_mem_nil _)
      (List.forall_mem_singleton.mpr (by decide))
  rw [lines_of_trim (htrim ▸ hjoined.1), htrim, List.splitOn_intercalate '\n' _ hne]
  · exact List.map_congr_left fun l hl => congrArg Line.read (dropReturn_eq_self (htrimmed l hl))
  · exact fun l hl hc => (hplain l hl _ hc).1 rfl

end RuleText

namespace Grammar

/-- The line of a head and its productions. -/
def printLine (e : NonTerminal × List Word) : List Char :=
  RuleText.printLine e.1 (e.2.map Word.chars)

theorem toList_render (g : Grammar) :
    g.render.toList = (g.table.map printLine).flatMap (· ++ ['\n']) := by
  unfold render table
  rw [String.toList_ofList, List.flatMap_map, List.flatMap_map]
  refine List.flatMap_congr fun e _ => ?_
  simp [renderRule, renderAlternatives, printLine, RuleText.printLine]

namespace Canonical

variable {e : NonTerminal × List Word}

theorem of_mem_table (hg : g.Canonical) (he : e ∈ g.table) :
    (Text.isBlank e.1.char = false ∧ ¬ IsGlyph e.1.char) ∧
      ∀ cs ∈ e.2.map Word.chars,
        Text.Trimmed cs ∧ ∀ c ∈ cs, c ≠ '|' ∧ c ≠ '\n' ∧ ¬ IsGlyph c := by
  have hhead : e.1 ∈ g.heads := map_fst_table g ▸ List.mem_map_of_mem he
  refine ⟨hg.head e.1 hhead, ?_⟩
  rw [List.forall_mem_map]
  intro w hw
  have hcanonical := hg.production e.1 w (produces_iff_table.mpr ⟨e.2, he, hw⟩)
  exact ⟨hcanonical.trimmed, hcanonical.plain⟩

theorem trimmed_printLine (hg : g.Canonical) (he : e ∈ g.table) :
    Text.Trimmed (Grammar.printLine e) := by
  obtain ⟨⟨hblank, _⟩, hwords⟩ := hg.of_mem_table he
  have hne : e.2.map Word.chars ≠ [] := by simpa using (mem_table he).1
  exact RuleText.trimmed_printLine hblank hne fun cs hcs => (hwords cs hcs).1

theorem plain_printLine (hg : g.Canonical) (he : e ∈ g.table) :
    ∀ c ∈ Grammar.printLine e, c ≠ '\n' ∧ ¬ IsGlyph c := by
  obtain ⟨⟨hblank, hglyph⟩, hwords⟩ := hg.of_mem_table he
  have hhead : e.1.char ≠ '\n' := Text.ne_of_not_isBlank hblank (by decide)
  exact RuleText.forall_mem_printLine ⟨hhead, hglyph⟩ fun cs hcs c hc => ((hwords cs hcs).2 c hc).2

theorem productions_printLine (hg : g.Canonical) (he : e ∈ g.table) :
    (RuleText.Line.read (Grammar.printLine e)).productions = e.2.map (e.1, ·) := by
  obtain ⟨⟨hblank, _⟩, hwords⟩ := hg.of_mem_table he
  have hne : e.2.map Word.chars ≠ [] := by simpa using (mem_table he).1
  have hread : RuleText.Line.read (Grammar.printLine e) = .rule e.1 (e.2.map Word.chars) :=
    RuleText.Line.read_printLine hblank hne fun cs hcs =>
      ⟨(hwords cs hcs).1, fun hbar => ((hwords cs hcs).2 _ hbar).1 rfl⟩
  rw [hread, RuleText.Line.productions, List.map_map]
  refine List.map_congr_left fun w hw => congrArg (e.1, ·) ?_
  exact (hg.production e.1 w (produces_iff_table.mpr ⟨e.2, he, hw⟩)).ofText_chars

theorem productions_render (hg : g.Canonical) :
    RuleText.productions g.render.toList = g.productions := by
  have htrimmed : ∀ l ∈ g.table.map Grammar.printLine, Text.Trimmed l :=
    List.forall_mem_map.mpr fun e he => hg.trimmed_printLine he
  have hplain : ∀ l ∈ g.table.map Grammar.printLine, ∀ c ∈ l, c ≠ '\n' ∧ ¬ IsGlyph c :=
    List.forall_mem_map.mpr fun e he => hg.plain_printLine he
  unfold RuleText.productions
  rw [toList_render, RuleText.lines_flatMap htrimmed hplain, List.map_map, List.flatMap_map,
    productions_eq]
  exact List.flatMap_congr fun e he => hg.productions_printLine he

end Canonical

/-- **Canonical grammars come back as they were printed**, heads and productions in order. -/
theorem parse_render (hg : g.Canonical) : parse g.render = g := by
  unfold parse
  rw [hg.productions_render, ofProductions_productions]

/-! ### Exactly the canonical grammars -/

/-- **Printing and reading back are inverse on canonical grammars, and on no others**: what is read
is canonical, what is canonical comes back in its order, and what comes back with its rules, in
whatever order, is canonical. -/
theorem parse_render_exactly_canonical :
    (∀ text, (parse text).Canonical) ∧ (∀ g : Grammar, g.Canonical → parse g.render = g) ∧
      ∀ g : Grammar, (parse g.render).SameRules g → g.Canonical :=
  ⟨canonical_parse, fun _ hg => parse_render hg,
    fun g e => e.canonical (canonical_parse g.render)⟩

/-- A grammar with the heads `-`, `>` and `|`, and with an arrow and white space within productions:
it is canonical, and so is what its text is read as. -/
theorem parse_render_arrow_heads :
    let g := ofProductions [(⟨'-'⟩, Word.ofText ['-', '>']), (⟨'-'⟩, Word.ofText ['>', ' ', 'S']),
      (⟨'>'⟩, Word.ofText ['*']), (⟨'|'⟩, Word.ofText ['a', '\r', '-'])]
    g.Canonical ∧ parse g.render = g ∧ (parse g.render).SameRules g := by
  intro g
  obtain ⟨_, hparse, hcanonical⟩ := parse_render_exactly_canonical
  have hg : g.Canonical := by decide +kernel
  have hsame : (parse g.render).SameRules g := by
    rw [hparse g hg]
    exact fun _ _ => Iff.rfl
  exact ⟨hcanonical g hsame, hparse g hg, hsame⟩

end Grammar

end GrammarComparison
