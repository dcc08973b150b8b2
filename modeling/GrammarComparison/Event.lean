import GrammarComparison.Renaming
import GrammarComparison.Text.Decimal

/-! # Events

What reading, enumerating, searching and comparing report besides their results.  Each kind of event
has a level and a text; functions that report return the list of their events in order. -/

namespace GrammarComparison

/-- How much an event matters, from the most to the least. -/
inductive Level where
  | error
  | warn
  | info
  | debug
  | trace
  deriving DecidableEq, Repr

namespace Level

/-- The name of a level. -/
def name : Level → String
  | error => "ERROR"
  | warn => "WARN"
  | info => "INFO"
  | debug => "DEBUG"
  | trace => "TRACE"

/-- The place of a level, beginning with the most severe. -/
def rank : Level → Nat
  | error => 0
  | warn => 1
  | info => 2
  | debug => 3
  | trace => 4

end Level

/-- Something worth reporting. -/
inductive Event where
  /-- A line of rule text without arrow. -/
  | noArrow (line : Nat)
  /-- A line of rule text with nothing before the arrow. -/
  | emptyHead (line : Nat)
  /-- A line of rule text with more than one character before the arrow. -/
  | longHead (line : Nat) (head : List Char)
  /-- An alternative that its head has already. -/
  | duplicate (line : Nat) (head : NonTerminal) (alternative : List Char)
  /-- A head that several lines of rule text declare. -/
  | merged (head : NonTerminal) (lines : Nat)
  /-- An enumeration that was cut by its step limit. -/
  | stopped (start : NonTerminal) (steps queued : Nat)
  /-- An enumeration that came to its end. -/
  | enumerated (strings : Nat) (start : NonTerminal) (steps forms : Nat)
  /-- A first grammar with more heads than the search for a renaming accepts. -/
  | tooManyHeads (heads limit : Nat)
  /-- Two grammars with different numbers of heads. -/
  | headsDiffer (first second : Nat)
  /-- A candidate of the search, with the number of strings it leads to. -/
  | candidate (m : Renaming) (strings : Nat)
  /-- The end of a search that found a renaming. -/
  | matched (m : Renaming) (tried : Nat)
  /-- The end of a search that found none. -/
  | unmatched (tried : Nat)
  /-- Two grammars with the same language. -/
  | same
  /-- Two grammars with different languages. -/
  | differ
  /-- A renaming under which the languages are the same. -/
  | sameUnder (m : Renaming)
  /-- A renaming that the search accepted and the comparison does not. -/
  | differUnder (m : Renaming)
  /-- Bounds chosen from the sizes of the grammars. -/
  | tuned (maxDepth maxLen : Nat) (first second : Float)
  /-- The bounds of a comparison. -/
  | checking (maxDepth maxLen : Nat)

namespace Event

/-- The level of an event. -/
def level : Event → Level
  | noArrow .. | emptyHead .. | duplicate .. | candidate .. => .trace
  | longHead .. | merged .. | stopped .. | tooManyHeads .. | headsDiffer .. => .warn
  | enumerated .. | matched .. | unmatched .. | same | sameUnder .. | differUnder .. => .debug
  | differ | tuned .. | checking .. => .info

/-- A character as a text. -/
def charText (c : Char) : String := String.ofList [c]

/-- The text of an event. -/
def text : Event → String
  | noArrow line => s!"line {line}: no `->`, skipped"
  | emptyHead line => s!"line {line}: empty head, skipped"
  | longHead line head =>
    s!"line {line}: head `{String.ofList head}` is longer than one symbol " ++
      "and can never be referenced, skipped"
  | duplicate line head alternative =>
    s!"line {line}: duplicate production {charText head.char} → {String.ofList alternative}"
  | merged head lines =>
    s!"productions for {charText head.char} were declared on {lines} lines and have been merged"
  | stopped start steps queued =>
    s!"enumeration from {charText start.char} stopped after {steps} steps " ++
      s!"with {queued} states still queued"
  | enumerated strings start steps forms =>
    s!"enumerated {strings} strings from {charText start.char} in {steps} steps " ++
      s!"({forms} distinct forms)"
  | tooManyHeads heads limit =>
    s!"first grammar has {heads} non-terminals, " ++
      s!"more than the {limit} the mapping search handles; skipping it"
  | headsDiffer first second =>
    s!"grammars have different numbers of non-terminals ({first} vs {second}); " ++
      "a mapping is less likely"
  | candidate m strings => s!"candidate {m.text}: {strings} strings"
  | matched m tried => s!"mapping {m.text} matched after {tried} candidates"
  | unmatched tried => s!"no mapping matched among {tried} candidates"
  | same => "languages match directly"
  | differ => "languages differ directly; searching for a symbol mapping"
  | sameUnder m => s!"languages match under mapping {m.text}"
  | differUnder m => s!"mapping {m.text} does not hold under the length bound"
  | tuned maxDepth maxLen first second =>
    s!"tuned bounds: max depth {maxDepth}, max length {maxLen} (average production length " ++
      s!"{Text.fixedPlaces 2 first} / {Text.fixedPlaces 2 second})"
  | checking maxDepth maxLen => s!"checking with max depth {maxDepth} and max length {maxLen}"

/-- The event on one line, its level first. -/
def line (e : Event) : String := s!"{e.level.name} {e.text}"

/-- Whether the event is at least as severe as the level. -/
def within (e : Event) (l : Level) : Bool := e.level.rank ≤ l.rank

end Event

end GrammarComparison
