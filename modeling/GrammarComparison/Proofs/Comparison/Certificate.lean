import Mathlib.Tactic.Tauto
import GrammarComparison.Comparison
import GrammarComparison.Proofs.Language

/-! # Reports as certificates

A comparison ends in one of four ways (`Config.Ending`, `Config.ending_compare`): the languages are
the same; a renaming makes them the same; the search accepted a renaming that does not under the
bounds of the comparison; or no renaming was found.  Equivalence is found in the first two
(`Config.isEquivalent_iff`), a renaming in the two in the middle (`Config.isSome_renaming?_iff`).

Whichever it is, the report can be checked against itself and against the two grammars
(`Config.report_certifies`).  Its verdict says whether the languages compared last are the same,
and a negative one comes with all the strings in which they differ (`Difference.Separates`), of
which there is at least one. -/

namespace GrammarComparison

/-! ### Differences -/

/-- The strings of `d` are those in which `l` and `m` differ. -/
structure Difference.Separates (d : Difference) (l m : Language) : Prop where
  mem_onlyFirst : ∀ w, w ∈ d.onlyFirst ↔ w ∈ l ∧ w ∉ m
  mem_onlySecond : ∀ w, w ∈ d.onlySecond ↔ w ∈ m ∧ w ∉ l
  disjoint : ∀ w, w ∈ d.onlyFirst → w ∉ d.onlySecond
  nonempty : d.onlyFirst ≠ .empty ∨ d.onlySecond ≠ .empty
  /-- Taking away and adding what differs turns the first language into the second. -/
  restores : ∀ w, w ∈ m ↔ (w ∈ l ∧ w ∉ d.onlyFirst) ∨ w ∈ d.onlySecond

theorem Difference.eq_of_between_empty {l m : Language}
    (hfirst : (between l m).onlyFirst = .empty) (hsecond : (between l m).onlySecond = .empty) :
    l = m := by
  ext w
  have hl : w ∉ l.sdiff m := by
    rw [show l.sdiff m = .empty from hfirst]
    exact Language.not_mem_empty
  have hm : w ∉ m.sdiff l := by
    rw [show m.sdiff l = .empty from hsecond]
    exact Language.not_mem_empty
  rw [Language.mem_sdiff] at hl hm
  tauto

theorem Difference.separates_between {l m : Language} (h : l ≠ m) :
    (between l m).Separates l m where
  mem_onlyFirst := fun _ => Language.mem_sdiff
  mem_onlySecond := fun _ => Language.mem_sdiff
  disjoint := by
    intro w hl hm
    exact (Language.mem_sdiff.mp hl).2 (Language.mem_sdiff.mp hm).1
  nonempty := by
    by_cases hfirst : (between l m).onlyFirst = .empty
    · exact .inr fun hsecond => h (eq_of_between_empty hfirst hsecond)
    · exact .inl hfirst
  restores := by
    intro w
    show w ∈ m ↔ (w ∈ l ∧ w ∉ l.sdiff m) ∨ w ∈ m.sdiff l
    rw [Language.mem_sdiff, Language.mem_sdiff]
    tauto

/-! ### How a comparison ends -/

namespace Config

variable (c : Config) (first : Grammar) (firstStart : NonTerminal) (second : Grammar)
  (secondStart : NonTerminal)

/-- What a grammar enumerates under the bounds and the step limit of the comparison. -/
def language (g : Grammar) (A : NonTerminal) : Language :=
  (g.enumerate c.bounds c.stepLimit A).language

/-- Under the bounds and the step limit of the comparison the first grammar, renamed by `m`,
enumerates what the second does. -/
def Holds (m : Renaming) : Prop :=
  c.language (m.apply first) secondStart = c.language second secondStart

/-- The reports that a comparison can end with. -/
inductive Ending : Report → Prop
  | same (heq : c.language first firstStart = c.language second secondStart) :
      Ending ⟨c.language first firstStart, c.language second secondStart, .same⟩
  | sameUnder (m : Renaming)
      (hne : c.language first firstStart ≠ c.language second secondStart)
      (hfound : (c.search first firstStart second secondStart).find? = some m)
      (heq : c.language (m.apply first) secondStart = c.language second secondStart) :
      Ending ⟨c.language first firstStart, c.language second secondStart,
        .sameUnder m (c.language (m.apply first) secondStart)⟩
  | differUnder (m : Renaming)
      (hne : c.language first firstStart ≠ c.language second secondStart)
      (hfound : (c.search first firstStart second secondStart).find? = some m)
      (hne' : c.language (m.apply first) secondStart ≠ c.language second secondStart) :
      Ending ⟨c.language first firstStart, c.language second secondStart,
        .differUnder m (c.language (m.apply first) secondStart)
          (.between (c.language (m.apply first) secondStart) (c.language second secondStart))⟩
  | differ (hne : c.language first firstStart ≠ c.language second secondStart)
      (hfound : (c.search first firstStart second secondStart).find? = none) :
      Ending ⟨c.language first firstStart, c.language second secondStart,
        .differ (.between (c.language first firstStart) (c.language second secondStart))⟩

/-- **How comparisons end.** -/
theorem ending_compare :
    c.Ending first firstStart second secondStart
      (c.compare first firstStart second secondStart).report := by
  unfold compare
  dsimp only
  split
  · rename_i heq
    exact .same heq
  · rename_i hne
    split
    · rename_i hfound
      exact .differ hne hfound
    · rename_i m hfound
      unfold Finding.ofRenaming
      split
      · rename_i heq
        exact .sameUnder m hne hfound heq
      · rename_i hne'
        exact .differUnder m hne hfound hne'

theorem isEquivalent_iff :
    (c.compare first firstStart second secondStart).report.isEquivalent = true ↔
      c.language first firstStart = c.language second secondStart ∨
      ∃ m, (c.search first firstStart second secondStart).find? = some m ∧
        c.Holds first second secondStart m := by
  have hending := c.ending_compare first firstStart second secondStart
  generalize (c.compare first firstStart second secondStart).report = r at hending
  cases hending with
  | same heq => exact iff_of_true rfl (.inl heq)
  | sameUnder m _ hfound heq => exact iff_of_true rfl (.inr ⟨m, hfound, heq⟩)
  | differUnder m hne hfound hne' =>
      refine iff_of_false nofun (not_or.mpr ⟨hne, ?_⟩)
      rintro ⟨n, hn, hholds⟩
      obtain rfl := Option.some.inj (hfound.symm.trans hn)
      exact hne' hholds
  | differ hne hfound =>
      refine iff_of_false nofun (not_or.mpr ⟨hne, ?_⟩)
      rintro ⟨n, hn, _⟩
      exact Option.some_ne_none n (hn.symm.trans hfound)

theorem isSome_renaming?_iff :
    (c.compare first firstStart second secondStart).report.finding.renaming?.isSome ↔
      c.language first firstStart ≠ c.language second secondStart ∧
      (c.search first firstStart second secondStart).find?.isSome := by
  have hending := c.ending_compare first firstStart second secondStart
  generalize (c.compare first firstStart second secondStart).report = r at hending
  cases hending with
  | same heq => exact iff_of_false nofun fun h => h.1 heq
  | sameUnder m hne hfound _ => exact iff_of_true rfl ⟨hne, hfound ▸ rfl⟩
  | differUnder m hne hfound _ => exact iff_of_true rfl ⟨hne, hfound ▸ rfl⟩
  | differ hne hfound => exact iff_of_false nofun fun h => by simp [hfound] at h

end Config

/-! ### Certificates -/

/-- The report certifies its verdict on the two grammars. -/
structure Report.Certifies (r : Report) (c : Config) (first : Grammar) (firstStart : NonTerminal)
    (second : Grammar) (secondStart : NonTerminal) : Prop where
  first_eq : r.first = c.language first firstStart
  second_eq : r.second = c.language second secondStart
  equivalent_iff : r.verdict = .equivalent ↔ r.first = r.second
  isEquivalent_iff : r.isEquivalent = true ↔ r.compared = r.second
  /-- Unless the languages are the same, the renaming is what the search found. -/
  renaming_eq : r.verdict ≠ .equivalent →
    r.finding.renaming? = (c.search first firstStart second secondStart).find?
  /-- The renamed first grammar is enumerated as the two grammars are, not as in the search. -/
  mapped_eq : ∀ m, r.finding.renaming? = some m →
    r.finding.mapped? = some (c.language (m.apply first) secondStart)
  separates : ∀ d, r.finding.difference? = some d → d.Separates r.compared r.second

theorem Config.Ending.certifies {c : Config} {first second : Grammar}
    {firstStart secondStart : NonTerminal} {r : Report}
    (h : c.Ending first firstStart second secondStart r) :
    r.Certifies c first firstStart second secondStart := by
  cases h with
  | same heq =>
      exact {
        first_eq := rfl
        second_eq := rfl
        equivalent_iff := iff_of_true rfl heq
        isEquivalent_iff := iff_of_true rfl heq
        renaming_eq := fun hverdict => absurd rfl hverdict
        mapped_eq := nofun
        separates := nofun }
  | sameUnder m hne hfound heq =>
      exact {
        first_eq := rfl
        second_eq := rfl
        equivalent_iff := iff_of_false nofun hne
        isEquivalent_iff := iff_of_true rfl heq
        renaming_eq := fun _ => hfound.symm
        mapped_eq := by
          rintro _ ⟨⟩
          rfl
        separates := nofun }
  | differUnder m hne hfound hne' =>
      exact {
        first_eq := rfl
        second_eq := rfl
        equivalent_iff := iff_of_false nofun hne
        isEquivalent_iff := iff_of_false nofun hne'
        renaming_eq := fun _ => hfound.symm
        mapped_eq := by
          rintro _ ⟨⟩
          rfl
        separates := by
          rintro _ ⟨⟩
          exact Difference.separates_between hne' }
  | differ hne hfound =>
      exact {
        first_eq := rfl
        second_eq := rfl
        equivalent_iff := iff_of_false nofun hne
        isEquivalent_iff := iff_of_false nofun hne
        renaming_eq := fun _ => hfound.symm
        mapped_eq := nofun
        separates := by
          rintro _ ⟨⟩
          exact Difference.separates_between hne }

/-- **Every report is a certificate**, and a renaming, the language it leads to and a difference are
there just for the verdicts that speak of them. -/
theorem Config.report_certifies (c : Config) (first : Grammar) (firstStart : NonTerminal)
    (second : Grammar) (secondStart : NonTerminal) :
    let r := (c.compare first firstStart second secondStart).report
    r.Certifies c first firstStart second secondStart ∧
      (r.finding.mapped?.isSome ↔ r.finding.renaming?.isSome) ∧
      (r.finding.renaming?.isSome ↔
        r.verdict = .equivalentUnderRenaming ∨ r.verdict = .notEquivalentUnderRenaming) ∧
      (r.finding.difference?.isSome ↔ r.isEquivalent = false) := by
  intro r
  have hending := c.ending_compare first firstStart second secondStart
  exact ⟨hending.certifies, r.finding.isSome_mapped?_iff, r.finding.isSome_renaming?_iff,
    r.finding.isSome_difference?_iff⟩

end GrammarComparison
