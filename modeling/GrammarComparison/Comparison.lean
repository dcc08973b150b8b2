import GrammarComparison.Renaming.Search
import GrammarComparison.StartSymbol

/-! # Comparing two grammars

Two grammars are compared by what they enumerate within bounds.  If their languages are the same
they appear equivalent.  If not, a renaming of the first grammar's non-terminals is searched for;
one that is found is checked again under the bounds of the comparison, which may differ from those
of the search.  A `Report` holds both languages and the `Finding`. -/

namespace GrammarComparison

/-! ### Settings -/

/-- The settings of a comparison. -/
structure Config where
  maxDepth : Nat
  /-- The length bound of the comparison. -/
  maxLen : Nat
  /-- The length bound of the search for a renaming. -/
  searchMaxLen : Option Nat
  filterShapes : Bool
  candidateLimit : Option Nat
  stepLimit : Option Nat
  deriving DecidableEq, Repr

namespace Config

/-- The settings with the given bounds, the usual length bound of the search, and no limits. -/
def ofBounds (maxDepth maxLen : Nat) : Config :=
  ⟨maxDepth, maxLen, some defaultSearchLength, false, none, none⟩

/-- The same settings with the length bound of the comparison used in the search as well. -/
def unify (c : Config) : Config := { c with searchMaxLen := some c.maxLen }

/-- The bounds of the comparison. -/
def bounds (c : Config) : Bounds := ⟨c.maxDepth, some c.maxLen⟩

/-- The search for a renaming that belongs to the settings. -/
def search (c : Config) (first : Grammar) (firstStart : NonTerminal) (second : Grammar)
    (secondStart : NonTerminal) : RenamingSearch :=
  ⟨first, firstStart, second, secondStart, ⟨c.maxDepth, c.searchMaxLen⟩, c.filterShapes,
    c.candidateLimit, c.stepLimit⟩

end Config

/-! ### Verdicts and findings -/

/-- What a comparison comes to. -/
inductive Verdict where
  | equivalent
  | equivalentUnderRenaming
  | notEquivalentUnderRenaming
  | notEquivalent
  deriving DecidableEq, Repr

namespace Verdict

/-- Whether the verdict is that the grammars are equivalent, renamed or not. -/
def isEquivalent : Verdict → Bool
  | equivalent | equivalentUnderRenaming => true
  | notEquivalentUnderRenaming | notEquivalent => false

/-- The verdict in words. -/
def text : Verdict → String
  | equivalent => "the grammars appear equivalent within the given depth and length"
  | equivalentUnderRenaming => "the grammars are equivalent under the symbol mapping found"
  | notEquivalentUnderRenaming =>
    "the grammars are not equivalent, even under the symbol mapping found"
  | notEquivalent => "the grammars are not equivalent within the given depth"

end Verdict

/-- The strings in which two languages differ. -/
structure Difference where
  onlyFirst : Language
  onlySecond : Language
  deriving DecidableEq

/-- The difference of two languages. -/
def Difference.between (l m : Language) : Difference := ⟨l.sdiff m, m.sdiff l⟩

/-- What a comparison found out. -/
inductive Finding where
  /-- The languages are the same. -/
  | same
  /-- The language of the renamed first grammar is that of the second. -/
  | sameUnder (m : Renaming) (mapped : Language)
  /-- The search accepted a renaming, but under the bounds of the comparison the language of the
  renamed first grammar is another than that of the second. -/
  | differUnder (m : Renaming) (mapped : Language) (difference : Difference)
  /-- The languages differ, and no renaming was found. -/
  | differ (difference : Difference)
  deriving DecidableEq

namespace Finding

/-- The verdict on a finding. -/
def verdict : Finding → Verdict
  | same => .equivalent
  | sameUnder .. => .equivalentUnderRenaming
  | differUnder .. => .notEquivalentUnderRenaming
  | differ .. => .notEquivalent

/-- The renaming that was found. -/
def renaming? : Finding → Option Renaming
  | same | differ _ => none
  | sameUnder m _ | differUnder m _ _ => some m

/-- The language of the renamed first grammar. -/
def mapped? : Finding → Option Language
  | same | differ _ => none
  | sameUnder _ l | differUnder _ l _ => some l

/-- The difference, if the languages differ. -/
def difference? : Finding → Option Difference
  | same | sameUnder .. => none
  | differUnder _ _ d | differ d => some d

theorem isSome_mapped?_iff (f : Finding) : f.mapped?.isSome ↔ f.renaming?.isSome := by
  cases f <;> rfl

theorem isSome_renaming?_iff (f : Finding) : f.renaming?.isSome ↔
    f.verdict = .equivalentUnderRenaming ∨ f.verdict = .notEquivalentUnderRenaming := by
  cases f <;> simp [renaming?, verdict]

theorem isSome_difference?_iff (f : Finding) :
    f.difference?.isSome ↔ f.verdict.isEquivalent = false := by
  cases f <;> simp [difference?, verdict, Verdict.isEquivalent]

end Finding

/-! ### Reports -/

/-- The result of a comparison. -/
structure Report where
  first : Language
  second : Language
  finding : Finding
  deriving DecidableEq

namespace Report

/-- The verdict of a report. -/
def verdict (r : Report) : Verdict := r.finding.verdict

/-- Whether the report finds the grammars equivalent, renamed or not. -/
def isEquivalent (r : Report) : Bool := r.verdict.isEquivalent

/-- The language that was compared with the second one last. -/
def compared (r : Report) : Language := r.finding.mapped?.getD r.first

end Report

/-- A report with the events on the way to it. -/
structure Comparison where
  report : Report
  events : List Event

/-! ### Comparing -/

/-- Settles a search that found the renaming `m`, where `e` is the enumeration of the renamed first
grammar and `l` the language of the second. -/
def Finding.ofRenaming (m : Renaming) (e l : Language) : Finding :=
  if e = l then .sameUnder m e else .differUnder m e (.between e l)

/-- The last event of a comparison that searched for a renaming, if there is one. -/
def Finding.event? : Finding → Option Event
  | same => some .same
  | sameUnder m _ => some (.sameUnder m)
  | differUnder m _ _ => some (.differUnder m)
  | differ _ => none

/-- Compares two grammars from the given start symbols. -/
def Config.compare (c : Config) (first : Grammar) (firstStart : NonTerminal) (second : Grammar)
    (secondStart : NonTerminal) : Comparison :=
  let e := first.enumerate c.bounds c.stepLimit firstStart
  let f := second.enumerate c.bounds c.stepLimit secondStart
  if e.language = f.language then
    ⟨⟨e.language, f.language, .same⟩, e.events ++ f.events ++ [.same]⟩
  else
    let outcome := (c.search first firstStart second secondStart).run
    let before := e.events ++ f.events ++ [.differ] ++ outcome.events
    match outcome.found with
    | none => ⟨⟨e.language, f.language, .differ (.between e.language f.language)⟩, before⟩
    | some m =>
      let mapped := (m.apply first).enumerate c.bounds c.stepLimit secondStart
      let finding := Finding.ofRenaming m mapped.language f.language
      ⟨⟨e.language, f.language, finding⟩, before ++ mapped.events ++ finding.event?.toList⟩

/-- Compares two grammars from start symbols given as text; the first invalid one is the error. -/
def Config.compareFrom (c : Config) (first : Grammar) (firstStart : String) (second : Grammar)
    (secondStart : String) : Except InvalidStart Comparison := do
  let A ← NonTerminal.read firstStart
  let B ← NonTerminal.read secondStart
  return c.compare first A second B

end GrammarComparison
