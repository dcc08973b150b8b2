import Mathlib.Logic.Relation
import GrammarComparison.Proofs.Grammar.RuleLanguage
import GrammarComparison.Proofs.Grammar.RuleOrder

/-! # Texts put together and laid out in another way

Rule text is read as a whole: its glyphs are replaced and its ends are trimmed before it is cut into
lines.  Yet each line is read as if it stood alone (`productions_append`, `productions_ofLines`), so
that a text of two parts gives the rules of the first part and then those of the second
(`Grammar.parse_append`).

It follows what may be done to a text.  How its lines are written is of no account: white space around
them, carriage returns at their ends, glyphs, and lines that are skipped (`Layout`) change neither the
rules nor their order.  Lines that change places or are repeated (`Edit`) may change the order and leave
the rules as they are.  One change is looked at in `Layout.productions_eq` and
`Edit.mem_productions_iff`; any number of them, made or undone, is a chain of such changes
(`Grammar.parse_line_by_line`). -/

namespace GrammarComparison

namespace RuleText

variable {cs ds l us vs : List Char} {ls : List (List Char)} {c : Char}

/-! ### Parts of a text -/

theorem normalize_append (cs ds : List Char) :
    normalize (cs ++ ds) = normalize cs ++ normalize ds := List.flatMap_append

theorem normalize_cons_of_not_glyph (hc : ¬ IsGlyph c) (cs : List Char) :
    normalize (c :: cs) = c :: normalize cs := by
  have hself : normalize [c] = [c] := normalize_eq_self (List.forall_mem_singleton.mpr hc)
  rw [← List.singleton_append, normalize_append, hself, List.singleton_append]

theorem mem_normalize (h : c ∈ normalize cs) : c ∈ cs ∨ c ∈ arrow ∨ c = Symbol.markerChar := by
  obtain ⟨d, hd, hc⟩ := List.mem_flatMap.mp h
  unfold asciiForm at hc
  split at hc
  · exact .inr (.inl hc)
  · split at hc
    · exact .inr (.inr (List.mem_singleton.mp hc))
    · exact .inl (List.mem_singleton.mp hc ▸ hd)

/-- **A text of two parts** declares the rules of the first part and then those of the second. -/
theorem productions_append (cs ds : List Char) :
    productions (cs ++ '\n' :: ds) = productions cs ++ productions ds := by
  rw [productions_eq_lineProductions, normalize_append,
    normalize_cons_of_not_glyph (by decide), lineProductions_append,
    ← productions_eq_lineProductions, ← productions_eq_lineProductions]

/-! ### White space -/

theorem not_isGlyph_of_isBlank (hc : Text.isBlank c = true) : ¬ IsGlyph c := by
  rintro (rfl | rfl) <;> exact absurd hc (by decide)

theorem productions_cons (hc : Text.isBlank c = true) (cs : List Char) :
    productions (c :: cs) = productions cs := by
  rw [productions_eq_lineProductions, normalize_cons_of_not_glyph (not_isGlyph_of_isBlank hc),
    lineProductions_cons hc, ← productions_eq_lineProductions]

theorem productions_concat (hc : Text.isBlank c = true) (cs : List Char) :
    productions (cs ++ [c]) = productions cs := by
  have hlast : normalize [c] = [c] :=
    normalize_eq_self (List.forall_mem_singleton.mpr (not_isGlyph_of_isBlank hc))
  rw [productions_eq_lineProductions, normalize_append, hlast, lineProductions_concat hc,
    ← productions_eq_lineProductions]

theorem productions_padded (hus : ∀ c ∈ us, Text.isBlank c = true)
    (hvs : ∀ c ∈ vs, Text.isBlank c = true) (cs : List Char) :
    productions (us ++ (cs ++ vs)) = productions cs :=
  Text.apply_padded (fun _ hc => productions_cons hc) (fun _ hc => productions_concat hc) hus hvs cs

/-! ### Lines on their own -/

/-- A text declares what its lines declare on their own, be there white space before its line breaks
or not. -/
theorem productions_intercalate (hus : ∀ c ∈ us, Text.isBlank c = true) (ls : List (List Char)) :
    productions ((us ++ ['\n']).intercalate ls) = ls.flatMap productions := by
  induction ls with
  | nil => rfl
  | cons l ls ih =>
      cases ls with
      | nil => rw [List.intercalate_singleton, List.flatMap_singleton]
      | cons m ls =>
          have hbreak : l ++ (us ++ ['\n']) ++ (us ++ ['\n']).intercalate (m :: ls) =
              (l ++ us) ++ '\n' :: (us ++ ['\n']).intercalate (m :: ls) := by simp
          have hline : productions (l ++ us) = productions l :=
            productions_padded (List.forall_mem_nil _) hus l
          rw [List.intercalate_cons_cons, hbreak, productions_append, hline, ih,
            List.flatMap_cons (x := l)]

/-- The text of the given lines, with line breaks between them. -/
def ofLines (ls : List (List Char)) : List Char := ['\n'].intercalate ls

theorem productions_ofLines (ls : List (List Char)) :
    productions (ofLines ls) = ls.flatMap productions :=
  productions_intercalate (List.forall_mem_nil _) ls

theorem productions_of_not_mem (hbreak : '\n' ∉ l) :
    productions l = (Line.read (normalize l)).productions := by
  have hnot : '\n' ∉ normalize l := by
    intro hmem
    rcases mem_normalize hmem with hl | harrow | hmarker
    · exact hbreak hl
    · simp [arrow] at harrow
    · simp [Symbol.markerChar] at hmarker
  rw [productions_eq_lineProductions, lineProductions, List.splitOn_eq_singleton hnot,
    List.flatMap_singleton]

/-- The line has no arrow, or what stands before its arrow is not one character. -/
def Skipped (l : List Char) : Prop :=
  ¬ arrow <:+: l ∨ ∃ u ps, IsRule l u ps ∧ (Text.trim u).length ≠ 1

theorem Skipped.contribution?_eq (h : Skipped l) : contribution? l = none := by
  rw [contribution?_eq_none_iff]
  rcases h with harrow | ⟨u, ps, hrule, hhead⟩
  · exact .inl harrow
  · exact .inr ⟨u, ps, hrule, .inl hhead⟩

theorem Skipped.productions_eq (hbreak : '\n' ∉ l) (h : Skipped (normalize l)) :
    productions l = [] := by
  rw [productions_of_not_mem hbreak, productions_read, h.contribution?_eq]
  rfl

/-! ### Changes to a text -/

/-- One change to a text that leaves its rules and their order alone. -/
inductive Layout : List Char → List Char → Prop
  /-- White space is put around a line. -/
  | pad {ls ms : List (List Char)} {l us vs : List Char} (hus : ∀ c ∈ us, Text.isBlank c = true)
      (hvs : ∀ c ∈ vs, Text.isBlank c = true) :
      Layout (ofLines (ls ++ l :: ms)) (ofLines (ls ++ (us ++ (l ++ vs)) :: ms))
  /-- All line breaks are written with carriage returns. -/
  | returns {ls : List (List Char)} : Layout (ofLines ls) (['\r', '\n'].intercalate ls)
  /-- An arrow is written as a glyph. -/
  | arrow {cs ds : List Char} : Layout (cs ++ '-' :: '>' :: ds) (cs ++ '→' :: ds)
  /-- A marker is written as a glyph. -/
  | marker {cs ds : List Char} : Layout (cs ++ '*' :: ds) (cs ++ 'ε' :: ds)
  /-- A line is put in that is skipped. -/
  | skipped {ls ms : List (List Char)} {l : List Char} (hbreak : '\n' ∉ l)
      (hl : Skipped (normalize l)) : Layout (ofLines (ls ++ ms)) (ofLines (ls ++ l :: ms))

/-- One change to a text that leaves its rules alone. -/
inductive Edit : List Char → List Char → Prop
  /-- The layout is changed. -/
  | layout {cs ds : List Char} (h : Layout cs ds) : Edit cs ds
  /-- The lines change places. -/
  | permute {ls ms : List (List Char)} (h : ls.Perm ms) : Edit (ofLines ls) (ofLines ms)
  /-- A line is repeated at some place. -/
  | repeated {ls ms : List (List Char)} {l : List Char} (hl : l ∈ ls ++ ms) :
      Edit (ofLines (ls ++ ms)) (ofLines (ls ++ l :: ms))

theorem Layout.productions_eq (h : Layout cs ds) : productions cs = productions ds := by
  cases h with
  | @pad ls ms l us vs hus hvs =>
      rw [productions_ofLines, productions_ofLines, List.flatMap_append, List.flatMap_append,
        List.flatMap_cons, List.flatMap_cons, productions_padded hus hvs]
  | @returns ls =>
      have hreturn : ∀ c ∈ ['\r'], Text.isBlank c = true :=
        List.forall_mem_singleton.mpr (by decide)
      rw [productions_ofLines]
      exact (productions_intercalate hreturn ls).symm
  | @arrow cs ds =>
      rw [productions_eq_lineProductions, productions_eq_lineProductions, normalize_append,
        normalize_append]
      rfl
  | @marker cs ds =>
      rw [productions_eq_lineProductions, productions_eq_lineProductions, normalize_append,
        normalize_append]
      rfl
  | @skipped ls ms l hbreak hl =>
      rw [productions_ofLines, productions_ofLines, List.flatMap_append, List.flatMap_append,
        List.flatMap_cons, hl.productions_eq hbreak, List.nil_append]

theorem Edit.mem_productions_iff (h : Edit cs ds) (p : NonTerminal × Word) :
    p ∈ productions cs ↔ p ∈ productions ds := by
  cases h with
  | layout h => rw [h.productions_eq]
  | permute h =>
      rw [productions_ofLines, productions_ofLines]
      exact (h.flatMap_right productions).mem_iff
  | @repeated ls ms l hl =>
      rw [productions_ofLines, productions_ofLines, List.mem_flatMap, List.mem_flatMap]
      refine exists_congr fun m => and_congr_left fun _ => ?_
      rw [List.mem_append] at hl
      simp only [List.mem_append, List.mem_cons]
      constructor
      · rintro (hm | hm)
        · exact .inl hm
        · exact .inr (.inr hm)
      · rintro (hm | rfl | hm)
        · exact .inl hm
        · exact hl
        · exact .inr hm

end RuleText

/-! ### The grammar of a changed text -/

namespace Grammar

open RuleText

theorem parse_append (t₁ t₂ : String) :
    parse (t₁ ++ "\n" ++ t₂) = (parse t₁).insertMany (parse t₂).productions := by
  have hlist : (t₁ ++ "\n" ++ t₂).toList = t₁.toList ++ '\n' :: t₂.toList := by simp
  unfold parse
  rw [hlist, RuleText.productions_append, insertMany_productions_ofProductions]
  exact insertMany_append empty _ _

/-- Any number of changes to the layout of a text leave its grammar as it is. -/
theorem parse_eq_of_layout {t t' : String} (h : Relation.EqvGen Layout t.toList t'.toList) :
    parse t = parse t' := by
  have hchain : ∀ {cs ds}, Relation.EqvGen Layout cs ds →
      RuleText.productions cs = RuleText.productions ds := by
    intro cs ds hchanges
    induction hchanges with
    | rel cs ds hchange => exact hchange.productions_eq
    | refl cs => rfl
    | symm cs ds _ ih => exact ih.symm
    | trans cs ds es _ _ ih₁ ih₂ => exact ih₁.trans ih₂
  unfold parse
  rw [hchain h]

/-- Any number of changes to a text that leave its rules alone lead to the same rules. -/
theorem sameRules_parse_of_edit {t t' : String} (h : Relation.EqvGen Edit t.toList t'.toList) :
    (parse t).SameRules (parse t') := by
  have hchain : ∀ {cs ds}, Relation.EqvGen Edit cs ds →
      ∀ p, p ∈ RuleText.productions cs ↔ p ∈ RuleText.productions ds := by
    intro cs ds hchanges
    induction hchanges with
    | rel cs ds hchange => exact hchange.mem_productions_iff
    | refl cs => exact fun _ => Iff.rfl
    | symm cs ds _ ih => exact fun p => (ih p).symm
    | trans cs ds es _ _ ih₁ ih₂ => exact fun p => (ih₁ p).trans (ih₂ p)
  intro A w
  unfold parse
  rw [produces_ofProductions, produces_ofProductions]
  exact hchain h (A, w)

/-- **Rule text is read line by line.**  Texts one after the other add up in order, layout is of no account,
and lines in another order or repeated lead to the same rules. -/
theorem parse_line_by_line :
    (∀ t₁ t₂ : String,
      parse (t₁ ++ "\n" ++ t₂) = (parse t₁).insertMany (parse t₂).productions) ∧
    (∀ t t' : String, Relation.EqvGen Layout t.toList t'.toList → parse t = parse t') ∧
    ∀ t t' : String, Relation.EqvGen Edit t.toList t'.toList →
      (parse t).SameRules (parse t') ∧
      ∀ b A, ((parse t).enumerate b none A).language = ((parse t').enumerate b none A).language := by
  refine ⟨parse_append, fun _ _ => parse_eq_of_layout, ?_⟩
  intro t t' h
  have hsame := sameRules_parse_of_edit h
  exact ⟨hsame, hsame.language_eq⟩

/-- Glyphs, carriage returns, an indented line and a line with a long head leave a grammar as it is.
With the lines exchanged and one of them repeated the heads come in another order. -/
theorem parse_lines_exchanged :
    let t := "S->*\nA->b"
    let t₁ := "S→ε\r\nAB->c\r\n\tA->b"
    let t₂ := "A->b\nS->*\nA->b"
    Relation.EqvGen Layout t.toList t₁.toList ∧ parse t = parse t₁ ∧
      Relation.EqvGen Edit t.toList t₂.toList ∧ (parse t).SameRules (parse t₂) ∧
      (∀ b A, ((parse t).enumerate b none A).language = ((parse t₂).enumerate b none A).language) ∧
      (parse t).heads ≠ (parse t₂).heads := by
  intro t t₁ t₂
  have hhead : Skipped (normalize "AB->c".toList) :=
    .inr ⟨['A', 'B'], [['c']], isRule_iff.mpr ⟨['c'], rfl, rfl⟩, by decide⟩
  have harrow : Layout "S->*\nA->b".toList "S→*\nA->b".toList :=
    @Layout.arrow ['S'] "*\nA->b".toList
  have hmarker : Layout "S→*\nA->b".toList "S→ε\nA->b".toList :=
    @Layout.marker "S→".toList "\nA->b".toList
  have hskipped : Layout "S→ε\nA->b".toList "S→ε\nAB->c\nA->b".toList :=
    @Layout.skipped ["S→ε".toList] ["A->b".toList] "AB->c".toList (by decide) hhead
  have hpad : Layout "S→ε\nAB->c\nA->b".toList "S→ε\nAB->c\n\tA->b".toList :=
    @Layout.pad ["S→ε".toList, "AB->c".toList] [] "A->b".toList ['\t'] []
      (List.forall_mem_singleton.mpr (by decide)) (List.forall_mem_nil _)
  have hreturns : Layout "S→ε\nAB->c\n\tA->b".toList "S→ε\r\nAB->c\r\n\tA->b".toList :=
    @Layout.returns ["S→ε".toList, "AB->c".toList, "\tA->b".toList]
  have hrepeated : Edit "S->*\nA->b".toList "S->*\nA->b\nA->b".toList :=
    @Edit.repeated ["S->*".toList] ["A->b".toList] "A->b".toList (by decide)
  have hpermute : Edit "S->*\nA->b\nA->b".toList "A->b\nS->*\nA->b".toList :=
    .permute (.swap "A->b".toList "S->*".toList ["A->b".toList])
  have hlayout : Relation.EqvGen Layout t.toList t₁.toList :=
    .trans _ _ _ (.rel _ _ harrow) <| .trans _ _ _ (.rel _ _ hmarker) <|
      .trans _ _ _ (.rel _ _ hskipped) <| .trans _ _ _ (.rel _ _ hpad) (.rel _ _ hreturns)
  have hedit : Relation.EqvGen Edit t.toList t₂.toList :=
    .trans _ _ _ (.rel _ _ hrepeated) (.rel _ _ hpermute)
  obtain ⟨_, hparse, hrules⟩ := parse_line_by_line
  obtain ⟨hsame, hlanguage⟩ := hrules t t₂ hedit
  exact ⟨hlayout, hparse t t₁ hlayout, hedit, hsame, hlanguage, by decide +kernel⟩

end Grammar

end GrammarComparison
