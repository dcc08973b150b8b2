import GrammarComparison.Comparison.Text
import GrammarComparison.Grammar.Definition
import GrammarComparison.Program.Arguments
import GrammarComparison.Program.File
import GrammarComparison.Shape.Table
import GrammarComparison.StartSymbol
import GrammarComparison.Tuning

/-! # The program

What the command-line program prints and answers, as a function of its arguments and of what its two
files hold.  The exit code is 0 if the grammars are found equivalent, 1 if they are not, and 2 if a
file cannot be read or a start symbol is invalid; the first such fault in the order of the files and
then of the start symbols is the one reported. -/

namespace GrammarComparison

/-- Why a run of the program fails. -/
inductive Failure where
  | unreadable (path : String) (cause : ReadFailure)
  | invalidStart (e : InvalidStart)
  deriving DecidableEq, Repr

namespace Failure

/-- The failure in words. -/
def message : Failure → String
  | unreadable path cause => s!"error: could not read {path}: {cause.message}"
  | invalidStart e => s!"error: {e.message}"

end Failure

/-- What a run of the program comes to. -/
structure Outcome where
  /-- The text on standard output. -/
  output : String
  events : List Event
  /-- Whether the grammars are found equivalent, or why there is no answer. -/
  result : Except Failure Bool

namespace Outcome

/-- The exit code. -/
def code (o : Outcome) : Nat :=
  match o.result with
  | .ok true => 0
  | .ok false => 1
  | .error _ => 2

/-- The text on standard error besides events. -/
def error? (o : Outcome) : Option String :=
  match o.result with
  | .ok _ => none
  | .error e => some e.message

/-- The outcome with output and events put before it. -/
def preceded (o : Outcome) (output : String) (events : List Event) : Outcome :=
  { o with output := output ++ o.output, events := events ++ o.events }

end Outcome

namespace Arguments

/-- The settings that the arguments ask for, with the given bounds. -/
def config (a : Arguments) (bounds : Nat × Nat) : Config :=
  let c := Config.ofBounds bounds.1 bounds.2
  let c := { c with filterShapes := a.filterShapes, candidateLimit := a.candidateLimit,
                    stepLimit := a.stepLimit }
  if a.unifyBounds then c.unify else c

/-- The description of a grammar: its definition and the table of its shapes. -/
def description (title : String) (g : Grammar) (start : NonTerminal) : String :=
  title ++ ":\n" ++ g.definition start ++ "\n" ++ String.ofList g.analysis.table.render ++ "\n"

/-- Describes both grammars, each after its start symbol was read. -/
def describe (a : Arguments) (first second : Grammar) : String × Except InvalidStart Unit :=
  match NonTerminal.read a.start1 with
  | .error e => ("", .error e)
  | .ok A =>
    let text := description "Grammar 1" first A
    match NonTerminal.read a.start2 with
    | .error e => (text, .error e)
    | .ok B => (text ++ description "Grammar 2" second B, .ok ())

/-- Compares the two grammars as the arguments ask for. -/
def compare (a : Arguments) (first second : Grammar) : Outcome :=
  let (bounds, tuning) := Tuning.bounds first second a.maxDepth a.maxLen
  let events := tuning ++ [.checking bounds.1 bounds.2]
  match (a.config bounds).compareFrom first a.start1 second a.start2 with
  | .error e => ⟨"", events, .error (.invalidStart e)⟩
  | .ok c => ⟨c.report.text, events ++ c.events, .ok c.report.isEquivalent⟩

/-- Runs the program on the contents of its two files. -/
def run (a : Arguments) (first second : Except ReadFailure String) : Outcome :=
  match first with
  | .error cause => ⟨"", [], .error (.unreadable a.first cause)⟩
  | .ok t =>
    let g := Grammar.parse t
    match second with
    | .error cause => ⟨"", Grammar.diagnose t, .error (.unreadable a.second cause)⟩
    | .ok u =>
      let h := Grammar.parse u
      let reading := Grammar.diagnose t ++ Grammar.diagnose u
      if a.verbose then
        match a.describe g h with
        | (text, .error e) => ⟨text, reading, .error (.invalidStart e)⟩
        | (text, .ok ()) => (a.compare g h).preceded text reading
      else (a.compare g h).preceded "" reading

end Arguments

end GrammarComparison
