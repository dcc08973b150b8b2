import GrammarComparison.Proofs.Enumeration.Saturation
import GrammarComparison.Proofs.Enumeration.StepLimit
import GrammarComparison.Proofs.Grammar.RoundTrip
import GrammarComparison.Proofs.Shape

/-! # The characters of strings

The kind of a symbol is settled when a text is read and never looked at again: a string is what is left
of a form without non-terminals when its markers are dropped, whatever characters these are written
with.  So the characters of strings are those of the terminals.  A search finds strings over the
terminals of its grammar only (`Grammar.mem_terminals_of_generates`), a renaming brings in no terminal
and loses none (`Renaming.mem_terminals_apply`), even if it sends non-terminals to small letters or to
`*`, and the terminals of a text are characters that the text does not use for anything else
(`Grammar.plain_of_mem_terminals_parse`).

Strings are no longer than the forms that spell them (`Word.length_spelling_le`), and so within the
length bound (`enumerate_plain_strings`). -/

namespace GrammarComparison

variable {g : Grammar} {b : Bounds} {limit : Option Nat} {A : NonTerminal} {w : Word} {v : List Char}
  {c : Char}

/-! ### Strings and forms -/

theorem Word.mem_of_mem_spelling (hw : w.isTerminal) (hc : c ∈ w.spelling) : .terminal c ∈ w := by
  obtain ⟨s, hs, rfl⟩ := List.mem_map.mp hc
  obtain ⟨hmem, hmarker⟩ := List.mem_filter.mp hs
  cases s with
  | terminal c => exact hmem
  | nonTerminal A => exact absurd (List.all_eq_true.mp hw _ hmem) (by simp [Symbol.nonTerminal?])
  | marker => simp at hmarker

theorem Word.length_spelling_le (w : Word) : w.spelling.length ≤ w.length := by
  unfold spelling
  rw [List.length_map]
  exact List.length_filter_le _ w

theorem Grammar.generates_of_mem_language (hv : v ∈ (g.enumerate b limit A).language) :
    g.Generates b A v :=
  (mem_language_iff_generates g b A v).mp (language_subset_of_laxer (Search.laxer_none limit) v hv)

/-! ### Terminals -/

theorem Grammar.mem_terminals_iff :
    c ∈ g.terminals ↔ ∃ A w, g.Produces A w ∧ .terminal c ∈ w := by
  unfold terminals
  rw [List.mem_eraseDups, List.mem_flatMap]
  constructor
  · rintro ⟨⟨B, w⟩, hp, hc⟩
    exact ⟨B, w, mem_productions_iff.mp hp, Word.mem_terminals_iff.mp hc⟩
  · rintro ⟨B, w, hp, hc⟩
    exact ⟨(B, w), mem_productions_iff.mpr hp, Word.mem_terminals_iff.mpr hc⟩

theorem Grammar.mem_terminals_of_generates (hv : g.Generates b A v) (hc : c ∈ v) :
    c ∈ g.terminals := by
  obtain ⟨n, w, _, hw, hterm, rfl⟩ := hv
  rcases List.mem_cons.mp (hw.over_alphabet _ (Word.mem_of_mem_spelling hterm hc)) with hstart | hmem
  · simp at hstart
  · obtain ⟨⟨B, p⟩, hp, hs⟩ := List.mem_flatMap.mp hmem
    exact mem_terminals_iff.mpr ⟨B, p, mem_productions_iff.mp hp, hs⟩

/-! ### Renamed grammars -/

namespace Renaming

theorem terminal_mem_renameWord {m : Renaming} :
    .terminal c ∈ m.renameWord w ↔ .terminal c ∈ w := by
  rw [← Word.mem_terminals_iff, terminals_renameWord, Word.mem_terminals_iff]

theorem mem_terminals_apply {m : Renaming} : c ∈ (m.apply g).terminals ↔ c ∈ g.terminals := by
  simp only [Grammar.mem_terminals_iff, produces_apply]
  constructor
  · rintro ⟨_, _, ⟨A, w, hw, rfl, rfl⟩, hc⟩
    exact ⟨A, w, hw, terminal_mem_renameWord.mp hc⟩
  · rintro ⟨A, w, hw, hc⟩
    exact ⟨_, _, ⟨A, w, hw, rfl, rfl⟩, terminal_mem_renameWord.mpr hc⟩

/-- The grammar with the given renamings applied, one after another. -/
def applyAll (ms : List Renaming) (g : Grammar) : Grammar := ms.foldl (fun g m => m.apply g) g

theorem mem_terminals_applyAll {ms : List Renaming} :
    c ∈ (applyAll ms g).terminals ↔ c ∈ g.terminals := by
  unfold applyAll
  induction ms generalizing g with
  | nil => exact Iff.rfl
  | cons m ms ih => exact (ih (g := m.apply g)).trans mem_terminals_apply

end Renaming

/-! ### Texts -/

theorem Symbol.plain_of_classify (h : classify c = .terminal c) :
    Text.isUpper c = false ∧ c ≠ markerChar := by
  unfold classify at h
  split at h
  · simp at h
  · rename_i hmarker
    split at h
    · simp at h
    · rename_i hupper
      exact ⟨Bool.eq_false_iff.mpr hupper, hmarker⟩

/-- The terminals of a text are small characters that have no meaning of their own in rule text. -/
theorem Grammar.plain_of_mem_terminals_parse {text : String} (hc : c ∈ (parse text).terminals) :
    Text.isUpper c = false ∧ c ≠ '*' ∧ c ≠ 'ε' ∧ c ≠ '→' ∧ c ≠ '|' ∧ c ≠ '\n' := by
  obtain ⟨A, w, hw, hmem⟩ := mem_terminals_iff.mp hc
  have hcanonical := (canonical_parse text).production A w hw
  obtain ⟨hbar, hbreak, hglyph⟩ := hcanonical.plain c (List.mem_map.mpr ⟨_, hmem, rfl⟩)
  obtain ⟨harrow, hepsilon⟩ := not_or.mp hglyph
  obtain ⟨hupper, hmarker⟩ := Symbol.plain_of_classify (hcanonical.tagged _ hmem)
  exact ⟨hupper, hmarker, hepsilon, harrow, hbar, hbreak⟩

/-- **Strings are plain and within the length bound.**  Whatever renamings are applied to the grammar of a
text, one after another, a search finds no string that is longer than the bound or has a capital letter, a
marker, an arrow glyph, a bar or a line break in it; the step limit is of no account. -/
theorem enumerate_plain_strings (text : String) (ms : List Renaming) (A : NonTerminal) (b : Bounds)
    (limit : Option Nat) :
    ∀ v ∈ ((Renaming.applyAll ms (Grammar.parse text)).enumerate b limit A).language,
      (∀ L, b.maxLen = some L → v.length ≤ L) ∧
      ∀ c ∈ v, Text.isUpper c = false ∧ c ≠ '*' ∧ c ≠ 'ε' ∧ c ≠ '→' ∧ c ≠ '|' ∧ c ≠ '\n' := by
  intro v hv
  have hgenerates := Grammar.generates_of_mem_language hv
  constructor
  · obtain ⟨n, w, _, hw, _, rfl⟩ := hgenerates
    exact fun L hL => Nat.le_trans w.length_spelling_le
      (hw.fits L hL)
  · intro c hc
    have hterminal := Grammar.mem_terminals_of_generates hgenerates hc
    exact Grammar.plain_of_mem_terminals_parse (Renaming.mem_terminals_applyAll.mp hterminal)

/-- In `S → aA | ε` and `A → b->c` the start symbol is renamed to `s` and further to `*`, and `A` to the
bar.  Four states lead to `ab->c`, which has no character of either. -/
theorem enumerate_renamed_to_marker :
    let g := Renaming.applyAll
      [.ofPairs [(⟨'S'⟩, ⟨'s'⟩)], .ofPairs [(⟨'s'⟩, ⟨'*'⟩), (⟨'A'⟩, ⟨'|'⟩)]]
      (.parse "S → aA | ε\nA → b->c")
    let e := g.enumerate ⟨2, some 5⟩ (some 4) ⟨'*'⟩
    let v := ['a', 'b', '-', '>', 'c']
    v ∈ e.language ∧ v.length ≤ 5 ∧ 'a' ∈ v ∧ Text.isUpper 'a' = false := by
  intro g e v
  have hv : v ∈ e.language := Language.mem_ofList.mpr (by decide +kernel)
  have ha : 'a' ∈ v := by decide
  obtain ⟨hlength, hplain⟩ := enumerate_plain_strings _ _ _ _ _ v hv
  exact ⟨hv, hlength 5 rfl, ha, (hplain 'a' ha).1⟩

end GrammarComparison
