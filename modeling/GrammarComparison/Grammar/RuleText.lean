import GrammarComparison.Event
import GrammarComparison.Text.Blank

/-! # Rule text

The written form of a grammar: one line `A -> u | v | w` for a head and its productions.  The glyphs
`→` and `ε` may stand for `->` and `*`.  Lines that are no rules are skipped, lines for one head are
merged, and a production that its head has already is dropped.

`Grammar.parse` reads rule text, `Grammar.diagnose` reports what it passed over, and
`Grammar.render` writes the text that `parse` reads back. -/

namespace GrammarComparison

namespace RuleText

/-! ### Lines -/

/-- What stands for a character in ASCII rule text: `->` for the arrow glyph, `*` for the epsilon
glyph, and the character itself for any other. -/
def asciiForm (c : Char) : List Char :=
  if c = '→' then ['-', '>'] else if c = 'ε' then [Symbol.markerChar] else [c]

/-- The text with both glyphs replaced. -/
def normalize (cs : List Char) : List Char := cs.flatMap asciiForm

/-- The text before and after the first `->`. -/
def splitArrow? : List Char → Option (List Char × List Char)
  | '-' :: '>' :: cs => some ([], cs)
  | c :: cs => (splitArrow? cs).map fun (u, v) => (c :: u, v)
  | [] => none

/-- The alternatives between the bars of a text, trimmed; blank ones do not count. -/
def splitBars (cs : List Char) : List (List Char) :=
  ((cs.splitOn '|').map Text.trim).filter (· ≠ [])

/-- The head and the alternatives of a line, both as written; `none` if it has no arrow. -/
def splitRule? (cs : List Char) : Option (List Char × List (List Char)) :=
  (splitArrow? cs).map fun (u, v) => (Text.trim u, splitBars v)

/-- What a line of rule text is. -/
inductive Line where
  | noArrow
  | emptyHead
  | longHead (head : List Char)
  | rule (head : NonTerminal) (alternatives : List (List Char))
  deriving DecidableEq, Repr

/-- Reads one line. -/
def Line.read (cs : List Char) : Line :=
  match splitRule? cs with
  | none => noArrow
  | some ([], _) => emptyHead
  | some ([c], alternatives) => rule ⟨c⟩ alternatives
  | some (head, _) => longHead head

/-- The rules that a line declares, in order. -/
def Line.productions : Line → List (NonTerminal × Word)
  | rule A alternatives => alternatives.map fun cs => (A, Word.ofText cs)
  | _ => []

/-- A carriage return at the end of a line belongs to the line break. -/
def dropReturn (cs : List Char) : List Char :=
  if cs.getLast? = some '\r' then cs.dropLast else cs

/-- The lines of a text, from the first that is not blank to the last. -/
def lines (cs : List Char) : List Line :=
  match Text.trim (normalize cs) with
  | [] => []
  | ds => (ds.splitOn '\n').map fun l => Line.read (dropReturn l)

/-- The rules that a text declares, in order and with repetitions. -/
def productions (cs : List Char) : List (NonTerminal × Word) :=
  (lines cs).flatMap Line.productions

/-! ### What is passed over -/

/-- How many lines declare each head, heads in order. -/
def declarations (ls : List Line) : OrderedMap NonTerminal Nat :=
  ls.foldl (fun m l => match l with
    | .rule A _ => m.update A fun n => n.getD 0 + 1
    | _ => m) .empty

/-- The alternatives among `css` that `A` has already when their turn comes, beginning with the
rules of `g`. -/
def duplicates (A : NonTerminal) : Grammar → List (List Char) → List (List Char)
  | _, [] => []
  | g, cs :: css =>
    let rest := duplicates A (g.insert A (Word.ofText cs)) css
    if g.Produces A (Word.ofText cs) then cs :: rest else rest

/-- The events of the line with number `n`, where `g` holds the rules of the lines before. -/
def Line.events (g : Grammar) (n : Nat) : Line → List Event
  | noArrow => [.noArrow n]
  | emptyHead => [.emptyHead n]
  | longHead head => [.longHead n head]
  | rule A alternatives => (duplicates A g alternatives).map (.duplicate n A)

/-- The events of lines numbered from `n`, where `g` holds the rules of the lines before. -/
def lineEvents : Grammar → Nat → List Line → List Event
  | _, _, [] => []
  | g, n, l :: ls => l.events g n ++ lineEvents (g.insertMany l.productions) (n + 1) ls

/-- The events for heads that several lines declare. -/
def mergeEvents (ls : List Line) : List Event :=
  ((declarations ls).entries.filter fun e => 1 < e.2).map fun (A, n) => .merged A n

end RuleText

namespace Grammar

/-! ### Reading and writing -/

/-- The grammar that a rule text describes. -/
def parse (text : String) : Grammar := ofProductions (RuleText.productions text.toList)

/-- What `parse` passes over or merges, line by line; lines count from the first that is not
blank. -/
def diagnose (text : String) : List Event :=
  let ls := RuleText.lines text.toList
  RuleText.lineEvents empty 1 ls ++ RuleText.mergeEvents ls

/-- The productions of one head, bars between them. -/
def renderAlternatives (as : Alternatives) : List Char :=
  List.intercalate [' ', '|', ' '] (as.words.map Word.chars)

/-- A head and its productions on one line. -/
def renderRule (A : NonTerminal) (as : Alternatives) : List Char :=
  A.char :: [' ', '-', '>', ' '] ++ renderAlternatives as ++ ['\n']

/-- The rule text of a grammar: a line for each head. -/
def render (g : Grammar) : String :=
  String.ofList (g.rules.entries.flatMap fun e => renderRule e.1 e.2)

end Grammar

end GrammarComparison
