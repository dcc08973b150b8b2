import GrammarComparison.Arrangement
import GrammarComparison.Enumeration
import GrammarComparison.Shape

/-! # Searching for a renaming

The search looks for a renaming of the heads of a first grammar under which it enumerates what a
second grammar enumerates.  A candidate pairs the two start symbols, and the other heads of the
first grammar with different heads of the second one other than its start symbol; candidates come
in lexicographic order of these targets.  The search stops at the first candidate that it accepts,
and a filter on shapes or a limit on their number may leave candidates out.

`foldCandidates_eq` says that visiting the candidates one by one is folding over the list
`candidates`. -/

namespace GrammarComparison

/-- The first grammar may have this many heads at most. -/
def maxSearchHeads : Nat := 6

/-- The length bound of a search that names none. -/
def defaultSearchLength : Nat := 15

/-- The number of candidates that a search without a limit of its own considers at most. -/
def candidateCeiling : Nat := 18446744073709551615

/-- What to search for, and how. -/
structure RenamingSearch where
  first : Grammar
  firstStart : NonTerminal
  second : Grammar
  secondStart : NonTerminal
  bounds : Bounds
  /-- Whether only non-terminals with the same kinds of productions are paired. -/
  filterShapes : Bool
  candidateLimit : Option Nat
  stepLimit : Option Nat

namespace RenamingSearch

/-! ### Candidates -/

/-- Whether the first grammar has too many heads for a search. -/
def tooLarge (r : RenamingSearch) : Bool := maxSearchHeads < r.first.heads.length

/-- The heads of the first grammar that need a target. -/
def sources (r : RenamingSearch) : List NonTerminal := r.first.heads.filter (· ≠ r.firstStart)

/-- The heads of the second grammar that may be targets. -/
def targets (r : RenamingSearch) : List NonTerminal := r.second.heads.filter (· ≠ r.secondStart)

/-- Whether the filter, if it is on, lets the pair pass. -/
def admits (r : RenamingSearch) (first second : Analysis) (p : NonTerminal × NonTerminal) : Bool :=
  !r.filterShapes || (first.shape p.1).compatible (second.shape p.2)

/-- The candidate with the given targets, if the filter lets it pass. -/
def candidate? (r : RenamingSearch) (first second : Analysis) (ts : List NonTerminal) :
    Option Renaming :=
  let pairs := r.sources.zip ts
  if pairs.all (r.admits first second) then some (.ofPairs ((r.firstStart, r.secondStart) :: pairs))
  else none

/-- The greatest number of candidates to consider. -/
def limit (r : RenamingSearch) : Nat := r.candidateLimit.getD candidateCeiling

/-- The candidates in order. -/
def candidates (r : RenamingSearch) : List Renaming :=
  if r.tooLarge then []
  else
    let first := r.first.analysis
    let second := r.second.analysis
    ((arrangements r.sources.length r.targets).filterMap (r.candidate? first second)).take r.limit

/-- Folds over at most `n` of the renamings that `pick` makes of arrangements. -/
def foldPicked {σ : Type} (pick : List NonTerminal → Option Renaming)
    (f : σ → Renaming → ForInStep σ) (s : Nat × σ) (ts : List NonTerminal) : ForInStep (Nat × σ) :=
  match s with
  | (0, t) => .done (0, t)
  | (n + 1, t) =>
    match pick ts with
    | none => .yield (n + 1, t)
    | some m =>
      match f t m with
      | .yield u => .yield (n, u)
      | .done u => .done (n, u)

/-- Folds over the candidates until `f` says that it is done. -/
def foldCandidates {σ : Type} (r : RenamingSearch) (f : σ → Renaming → ForInStep σ) (s : σ) : σ :=
  if r.tooLarge then s
  else
    let first := r.first.analysis
    let second := r.second.analysis
    (stepValue (foldArrangements (foldPicked (r.candidate? first second) f) r.sources.length
      (r.limit, s) r.targets)).2

/-! ### The course of a search -/

/-- What there is to say about the two grammars before the first candidate. -/
def preliminaries (r : RenamingSearch) : List Event :=
  let m := r.first.heads.length
  let n := r.second.heads.length
  if r.tooLarge then [.tooManyHeads m maxSearchHeads]
  else if m ≠ n then [.headsDiffer m n]
  else []

/-- The enumeration that a candidate leads to. -/
def enumerateUnder (r : RenamingSearch) (m : Renaming) : Enumeration :=
  (m.apply r.first).enumerate r.bounds r.stepLimit r.secondStart

/-- The enumeration of the second grammar. -/
def target (r : RenamingSearch) : Enumeration :=
  r.second.enumerate r.bounds r.stepLimit r.secondStart

/-- Whether the candidate leads to the language of the second grammar. -/
def accepts (r : RenamingSearch) (m : Renaming) : Bool :=
  (r.enumerateUnder m).language == r.target.language

end RenamingSearch

/-- A candidate that was tried, with the enumeration that it led to. -/
structure Attempt where
  candidate : Renaming
  enumeration : Enumeration

namespace Attempt

/-- The events of an attempt. -/
def events (a : Attempt) : List Event :=
  a.enumeration.events ++ [.candidate a.candidate a.enumeration.language.size]

end Attempt

/-- The course of a search: the enumeration to match, the attempts, and the renaming found. -/
structure SearchOutcome where
  preliminaries : List Event
  target : Enumeration
  attempts : List Attempt
  found : Option Renaming

namespace SearchOutcome

/-- The number of candidates tried. -/
def tried (o : SearchOutcome) : Nat := o.attempts.length

/-- How the search ended. -/
def conclusion (o : SearchOutcome) : Event :=
  match o.found with
  | some m => .matched m o.tried
  | none => .unmatched o.tried

/-- The events of a search. -/
def events (o : SearchOutcome) : List Event :=
  o.target.events ++ o.preliminaries ++ o.attempts.flatMap Attempt.events ++ [o.conclusion]

end SearchOutcome

namespace RenamingSearch

/-- Tries a candidate: the search is done if it leads to the language `l`. -/
def tryCandidate (r : RenamingSearch) (l : Language) (s : List Attempt × Option Renaming)
    (m : Renaming) : ForInStep (List Attempt × Option Renaming) :=
  let e := r.enumerateUnder m
  if e.language = l then .done (⟨m, e⟩ :: s.1, some m) else .yield (⟨m, e⟩ :: s.1, none)

/-- Tries the candidates in order up to the first that is accepted. -/
def run (r : RenamingSearch) : SearchOutcome :=
  let target := r.target
  let (attempts, found) := r.foldCandidates (r.tryCandidate target.language) ([], none)
  ⟨r.preliminaries, target, attempts.reverse, found⟩

/-- The renaming that the search finds. -/
def find? (r : RenamingSearch) : Option Renaming := r.run.found

/-! ### The fold over the candidates -/

theorem foldUntil_foldPicked {σ : Type} (pick : List NonTerminal → Option Renaming)
    (f : σ → Renaming → ForInStep σ) (n : Nat) (s : σ) (tss : List (List NonTerminal)) :
    (stepValue (foldUntil (foldPicked pick f) (n, s) tss)).2 =
      stepValue (foldUntil f s ((tss.filterMap pick).take n)) := by
  induction tss generalizing n s with
  | nil => simp [foldUntil, stepValue]
  | cons ts tss ih =>
    cases n with
    | zero => simp [foldUntil, foldPicked, stepValue]
    | succ n =>
      cases hpick : pick ts with
      | none => simp [foldUntil, foldPicked, hpick, ih]
      | some m =>
        cases hf : f s m with
        | yield t => simp [foldUntil, foldPicked, hpick, hf, ih]
        | done t => simp [foldUntil, foldPicked, hpick, hf, stepValue]

/-- Visiting the candidates one by one is folding over their list. -/
theorem foldCandidates_eq {σ : Type} (r : RenamingSearch) (f : σ → Renaming → ForInStep σ) (s : σ) :
    r.foldCandidates f s = stepValue (foldUntil f s r.candidates) := by
  unfold foldCandidates candidates
  split
  · rfl
  · simp only [foldArrangements_eq, foldUntil_foldPicked]

end RenamingSearch

end GrammarComparison
