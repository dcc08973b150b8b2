import GrammarComparison.Grammar.RuleText
import GrammarComparison.Proofs.Text.Trim

/-! # What rule text is made of

Where the characters of a rule come from.  Normalized text has neither glyph
(`not_glyph_of_mem_normalize`), and text without glyphs is its own normal form (`normalize_eq_self`).
A rule that a text declares stands on one of its lines, whose characters are those of the normalized
text other than line breaks (`exists_line_of_mem_productions`).  Its head is what is left of the text
before the first arrow (`splitArrow?_eq_some_iff`, `Line.read_eq_rule`), and each alternative what is
left of a piece between bars (`exists_of_mem_splitBars`). -/

namespace GrammarComparison.RuleText

variable {cs ds u v : List Char} {c x : Char} {A : NonTerminal} {w : Word}

/-! ### Glyphs -/

/-- The character is written as a glyph for `->` or `*`. -/
def IsGlyph (c : Char) : Prop := c = '→' ∨ c = 'ε'

instance (c : Char) : Decidable (IsGlyph c) := inferInstanceAs (Decidable (c = '→' ∨ c = 'ε'))

theorem not_glyph_of_mem_normalize (h : c ∈ normalize cs) : ¬ IsGlyph c := by
  obtain ⟨d, _, hc⟩ := List.mem_flatMap.mp h
  unfold asciiForm at hc
  split at hc
  · simp only [List.mem_cons, List.not_mem_nil, or_false] at hc
    rcases hc with rfl | rfl <;> decide
  · split at hc
    · rw [List.mem_singleton] at hc
      rw [hc]
      decide
    · rename_i harrow hepsilon
      rw [List.mem_singleton] at hc
      rw [hc]
      exact not_or.mpr ⟨harrow, hepsilon⟩

theorem normalize_eq_self (h : ∀ c ∈ cs, ¬ IsGlyph c) : normalize cs = cs := by
  have hself : ∀ c ∈ cs, asciiForm c = [c] := by
    intro c hc
    obtain ⟨harrow, hepsilon⟩ := not_or.mp (h c hc)
    rw [asciiForm, if_neg harrow, if_neg hepsilon]
  unfold normalize
  rw [List.flatMap_congr hself, List.flatMap_singleton']

/-! ### Pieces of text -/

theorem mem_of_mem_splitOn (hds : ds ∈ cs.splitOn x) (hc : c ∈ ds) : c ∈ cs ∧ c ≠ x := by
  induction cs generalizing ds with
  | nil =>
      rw [List.splitOn_nil, List.mem_singleton] at hds
      simp [hds] at hc
  | cons d cs ih =>
      rw [List.splitOn_cons_eq_if_modifyHead] at hds
      split at hds
      · rcases List.mem_cons.mp hds with rfl | hds
        · simp at hc
        · exact ⟨List.mem_cons_of_mem d (ih hds hc).1, (ih hds hc).2⟩
      · rename_i hd
        cases hsplit : cs.splitOn x with
        | nil => exact absurd hsplit (List.splitOn_ne_nil x cs)
        | cons es ess =>
            rw [hsplit] at hds ih
            rcases List.mem_cons.mp hds with rfl | hds
            · rcases List.mem_cons.mp hc with rfl | hc
              · exact ⟨List.mem_cons_self, by simpa using hd⟩
              · have hmem := ih List.mem_cons_self hc
                exact ⟨List.mem_cons_of_mem d hmem.1, hmem.2⟩
            · have hmem := ih (List.mem_cons_of_mem es hds) hc
              exact ⟨List.mem_cons_of_mem d hmem.1, hmem.2⟩

/-- The character after the last split belongs to the last piece. -/
theorem exists_splitOn_concat (hc : c ≠ x) (cs : List Char) :
    ∃ dss ds, cs.splitOn x = dss ++ [ds] ∧ (cs ++ [c]).splitOn x = dss ++ [ds ++ [c]] := by
  induction cs with
  | nil =>
      have hnot : x ∉ [] ++ [c] := by simpa using hc.symm
      exact ⟨[], [], List.splitOn_nil x, List.splitOn_eq_singleton hnot⟩
  | cons d cs ih =>
      obtain ⟨dss, ds, hcs, hconcat⟩ := ih
      rw [List.cons_append, List.splitOn_cons_eq_if_modifyHead, List.splitOn_cons_eq_if_modifyHead,
        hcs, hconcat]
      split
      · exact ⟨[] :: dss, ds, rfl, rfl⟩
      · cases dss with
        | nil => exact ⟨[], d :: ds, rfl, rfl⟩
        | cons es dss => exact ⟨(d :: es) :: dss, ds, rfl, rfl⟩

theorem exists_of_mem_splitBars (h : ds ∈ splitBars cs) :
    Text.Trimmed ds ∧ ∃ es ∈ cs.splitOn '|', ds = Text.trim es := by
  obtain ⟨hmap, hne⟩ := List.mem_filter.mp h
  obtain ⟨es, hes, rfl⟩ := List.mem_map.mp hmap
  exact ⟨Text.trimmed_trim (by simpa using hne), es, hes, rfl⟩

theorem splitBars_append_cons (u v : List Char) :
    splitBars (u ++ '|' :: v) = splitBars u ++ splitBars v := by
  unfold splitBars
  rw [List.splitOn_append_cons_self, List.map_append, List.filter_append]

theorem splitBars_of_not_mem (h : '|' ∉ cs) (hne : Text.trim cs ≠ []) :
    splitBars cs = [Text.trim cs] := by
  unfold splitBars
  rw [List.splitOn_eq_singleton h]
  simp [hne]

/-! ### The first arrow -/

/-- The arrow between a head and its alternatives. -/
def arrow : List Char := ['-', '>']

/-- A first character that does not start an arrow stands before the first arrow. -/
theorem splitArrow?_cons (h : ¬ arrow <+: c :: cs) :
    splitArrow? (c :: cs) = (splitArrow? cs).map fun (u, v) => (c :: u, v) := by
  rw [splitArrow?]
  rintro ds rfl rfl
  exact h ⟨ds, rfl⟩

theorem splitArrow?_eq_none_iff : splitArrow? cs = none ↔ ¬ arrow <:+: cs := by
  fun_induction splitArrow? cs with
  | case1 cs =>
      have h : arrow <:+: '-' :: '>' :: cs := List.IsPrefix.isInfix ⟨cs, rfl⟩
      simp [h]
  | case2 c cs hnot ih =>
      have hstart : ¬ arrow <+: c :: cs := by
        rintro ⟨ds, hds⟩
        obtain ⟨rfl, rfl⟩ := List.cons.inj hds
        exact hnot ds rfl rfl
      rw [Option.map_eq_none_iff, ih, List.infix_cons_iff]
      simp only [hstart, false_or]
  | case3 => simp [arrow]

theorem eq_of_splitArrow? (h : splitArrow? cs = some (u, v)) : cs = u ++ '-' :: '>' :: v := by
  fun_induction splitArrow? cs generalizing u with
  | case1 cs =>
      obtain ⟨rfl, rfl⟩ := Prod.mk.inj (Option.some.inj h)
      rfl
  | case2 c cs _ ih =>
      obtain ⟨⟨u', v'⟩, hsplit, huv⟩ := Option.map_eq_some_iff.mp h
      obtain ⟨rfl, rfl⟩ := Prod.mk.inj huv
      rw [List.cons_append, ← ih hsplit]
  | case3 => simp at h

/-- The text before the first arrow has none. -/
theorem not_arrow_of_splitArrow? (h : splitArrow? cs = some (u, v)) : ¬ arrow <:+: u := by
  fun_induction splitArrow? cs generalizing u with
  | case1 cs =>
      obtain ⟨rfl, _⟩ := Prod.mk.inj (Option.some.inj h)
      simp [arrow]
  | case2 c cs hnot ih =>
      obtain ⟨⟨u', v'⟩, hsplit, huv⟩ := Option.map_eq_some_iff.mp h
      obtain ⟨rfl, rfl⟩ := Prod.mk.inj huv
      rw [List.infix_cons_iff, not_or]
      refine ⟨?_, ih hsplit⟩
      rintro ⟨ds, hds⟩
      obtain ⟨rfl, rfl⟩ := List.cons.inj hds
      exact hnot (ds ++ '-' :: '>' :: v') rfl (eq_of_splitArrow? hsplit)
  | case3 => simp at h

theorem splitArrow?_append_arrow (h : ¬ arrow <:+: u) (v : List Char) :
    splitArrow? (u ++ '-' :: '>' :: v) = some (u, v) := by
  induction u with
  | nil => rfl
  | cons c u ih =>
      rw [List.infix_cons_iff, not_or] at h
      obtain ⟨hstart, hinfix⟩ := h
      have hnot : ¬ arrow <+: c :: (u ++ '-' :: '>' :: v) := by
        rintro ⟨ds, hds⟩
        obtain ⟨rfl, htail⟩ := List.cons.inj hds
        cases u with
        | nil => simp at htail
        | cons d u =>
            obtain ⟨rfl, _⟩ := List.cons.inj htail
            exact hstart ⟨u, rfl⟩
      rw [List.cons_append, splitArrow?_cons hnot, ih hinfix]
      rfl

theorem splitArrow?_eq_some_iff :
    splitArrow? cs = some (u, v) ↔ cs = u ++ '-' :: '>' :: v ∧ ¬ arrow <:+: u := by
  constructor
  · intro h
    exact ⟨eq_of_splitArrow? h, not_arrow_of_splitArrow? h⟩
  · rintro ⟨rfl, h⟩
    exact splitArrow?_append_arrow h v

theorem splitArrow?_concat (hc : c ≠ '>') (cs : List Char) :
    splitArrow? (cs ++ [c]) = (splitArrow? cs).map fun (u, v) => (u, v ++ [c]) := by
  cases hsplit : splitArrow? cs with
  | none =>
      have hlast : ¬ arrow <:+ cs ++ [c] := by
        rintro ⟨ds, hds⟩
        have hds' : (ds ++ ['-']) ++ ['>'] = cs ++ [c] := by
          rw [← hds, List.append_assoc]
          rfl
        exact hc (List.append_singleton_inj.mp hds').2.symm
      rw [Option.map_none, splitArrow?_eq_none_iff, List.infix_concat_iff, not_or]
      exact ⟨hlast, splitArrow?_eq_none_iff.mp hsplit⟩
  | some uv =>
      obtain ⟨u, v⟩ := uv
      obtain ⟨rfl, hfirst⟩ := splitArrow?_eq_some_iff.mp hsplit
      rw [Option.map_some, splitArrow?_eq_some_iff]
      exact ⟨by simp, hfirst⟩

/-! ### Lines -/

theorem mem_of_mem_dropReturn (h : c ∈ dropReturn cs) : c ∈ cs := by
  unfold dropReturn at h
  split at h
  · exact (List.dropLast_sublist cs).subset h
  · exact h

theorem Line.read_eq_rule {css : List (List Char)} (h : Line.read cs = .rule A css) :
    ∃ u v, splitArrow? cs = some (u, v) ∧ Text.trim u = [A.char] ∧ css = splitBars v := by
  unfold Line.read at h
  split at h
  · simp at h
  · simp at h
  · rename_i c css' hsplit
    obtain ⟨⟨u, v⟩, harrow, huv⟩ := Option.map_eq_some_iff.mp hsplit
    obtain ⟨rfl, rfl⟩ := Line.rule.inj h
    obtain ⟨htrim, hbars⟩ := Prod.mk.inj huv
    exact ⟨u, v, harrow, htrim, hbars.symm⟩
  · simp at h

theorem Line.mem_productions {l : Line} (h : (A, w) ∈ l.productions) :
    ∃ css, l = .rule A css ∧ ∃ ds ∈ css, w = Word.ofText ds := by
  cases l with
  | rule B css =>
      obtain ⟨ds, hds, hw⟩ := List.mem_map.mp h
      obtain ⟨rfl, rfl⟩ := Prod.mk.inj hw
      exact ⟨css, rfl, ds, hds, rfl⟩
  | _ => simp [Line.productions] at h

theorem exists_line_of_mem_productions (h : (A, w) ∈ productions cs) :
    ∃ l css ds, (∀ c ∈ l, c ∈ normalize cs ∧ c ≠ '\n') ∧ Line.read l = .rule A css ∧ ds ∈ css ∧
      w = Word.ofText ds := by
  obtain ⟨l, hl, hw⟩ := List.mem_flatMap.mp h
  obtain ⟨css, rfl, ds, hds, rfl⟩ := Line.mem_productions hw
  unfold lines at hl
  split at hl
  · simp at hl
  · obtain ⟨es, hes, hread⟩ := List.mem_map.mp hl
    refine ⟨dropReturn es, css, ds, ?_, hread, hds, rfl⟩
    intro c hc
    have hmem := mem_of_mem_splitOn hes (mem_of_mem_dropReturn hc)
    exact ⟨Text.mem_of_mem_trim hmem.1, hmem.2⟩

end GrammarComparison.RuleText
