/-! # Command-line arguments

Two file names, start symbols, bounds, limits and switches.  An option that takes a value has it in
the next argument, or in the same one after `=`; a short option may also have it directly after its
letter, and short switches may share one argument.  After `--` every argument is a file name.  No
option may be given twice.

Reading goes in two steps: `CommandLine.scan?` takes the arguments apart, and `Arguments.ofItems?` looks
at what was given.  Help or the version may be asked for in place of a run: the scan ends there, what
precedes must be without fault as far as it goes, and what follows is not read (`notice?_append`). -/

namespace GrammarComparison

/-! ### Names of options -/

/-- An option that takes a value. -/
inductive ValueOption where
  | start1
  | start2
  | maxDepth
  | maxLen
  | candidateLimit
  | stepLimit
  deriving DecidableEq, Repr

/-- An option that is given or not. -/
inductive Switch where
  | unifyBounds
  | structuralFilter
  | verbose
  deriving DecidableEq, Repr

/-- One thing said by the arguments. -/
inductive Item where
  | file (name : List Char)
  | value (option : ValueOption) (text : List Char)
  | switch (s : Switch)
  deriving DecidableEq, Repr

/-- A text that is asked for in place of a run. -/
inductive Notice where
  | help
  | version
  deriving DecidableEq, Repr

/-- What a name of an option stands for. -/
inductive OptionName where
  | value (option : ValueOption)
  | switch (s : Switch)
  | notice (n : Notice)
  deriving DecidableEq, Repr

namespace OptionName

/-- The long names. -/
def long? (name : List Char) : Option OptionName :=
  [("start1", value .start1), ("start2", value .start2), ("max-depth", value .maxDepth),
    ("max-len", value .maxLen), ("candidate-limit", value .candidateLimit),
    ("step-limit", value .stepLimit), ("unify-bounds", switch .unifyBounds),
    ("structural-filter", switch .structuralFilter), ("verbose", switch .verbose),
    ("help", notice .help), ("version", notice .version)].findSome?
    fun (s, o) => if s.toList = name then some o else none

/-- The short names. -/
def short? (c : Char) : Option OptionName :=
  match c with
  | 'd' => some (value .maxDepth)
  | 'l' => some (value .maxLen)
  | 'v' => some (switch .verbose)
  | 'h' => some (notice .help)
  | 'V' => some (notice .version)
  | _ => none

end OptionName

/-- The text asked for. -/
def Notice.text : Notice → String
  | help => "\n".intercalate
    ["Approximate equivalence check between two grammars",
     "",
     "Usage: grameq [OPTIONS] <FIRST> <SECOND>",
     "",
     "Arguments:",
     "  <FIRST>   File containing the first grammar",
     "  <SECOND>  File containing the second grammar",
     "",
     "Options:",
     "      --start1 <SYMBOL>          Start symbol of the first grammar [default: S]",
     "      --start2 <SYMBOL>          Start symbol of the second grammar [default: S]",
     "  -d, --max-depth <DEPTH>        Maximum derivation depth (default: tuned from the grammars)",
     "  -l, --max-len <LENGTH>         Maximum sentential form length (default: tuned from the grammars)",
     "      --unify-bounds             Use the length bound inside the mapping search as well",
     "      --structural-filter        Only pair non-terminals with matching production shapes",
     "      --candidate-limit <COUNT>  Stop the mapping search after this many candidates",
     "      --step-limit <STEPS>       Stop each enumeration after this many derivation steps",
     "  -v, --verbose                  Print the parsed grammars and their structural features",
     "  -h, --help                     Print help",
     "  -V, --version                  Print version",
     ""]
  | version => "grameq-cli 0.0.0\n"

/-! ### Taking arguments apart -/

/-- What has to be read next. -/
inductive Next where
  | argument
  | value (option : ValueOption)
  /-- Nothing, for a text was asked for. -/
  | stop (n : Notice)
  deriving DecidableEq, Repr

/-- What the scan of one argument comes to. -/
structure Scanned where
  items : List Item
  next : Next
  deriving DecidableEq, Repr

/-- What the arguments say, up to the first that asks for a text. -/
structure CommandLine where
  items : List Item
  notice : Option Notice
  deriving DecidableEq, Repr

namespace CommandLine

/-- Reads what follows `--` in a long option. -/
def scanLong? (cs : List Char) : Option Scanned :=
  let name := cs.takeWhile (· ≠ '=')
  match OptionName.long? name, cs.drop name.length with
  | some (.value o), _ :: text => some ⟨[.value o text], .argument⟩
  | some (.value o), [] => some ⟨[], .value o⟩
  | some (.switch s), [] => some ⟨[.switch s], .argument⟩
  | some (.notice n), [] => some ⟨[], .stop n⟩
  | _, _ => none

/-- The value written directly after a short option, or after `=`. -/
def attached : List Char → List Char
  | '=' :: text => text
  | text => text

/-- Reads what follows `-` in an argument of short options. -/
def scanShort? : List Char → Option Scanned
  | [] => some ⟨[], .argument⟩
  | c :: cs =>
    match OptionName.short? c with
    | none => none
    | some (.value o) =>
      if cs = [] then some ⟨[], .value o⟩ else some ⟨[.value o (attached cs)], .argument⟩
    | some (.switch s) => (scanShort? cs).map fun r => ⟨.switch s :: r.items, r.next⟩
    | some (.notice n) => some ⟨[], .stop n⟩

/-- Whether an argument is written like an option; a single hyphen is not. -/
def isOptionLike : List Char → Bool
  | '-' :: _ :: _ => true
  | _ => false

/-- Reads one argument that is not a value. -/
def scanArgument? : List Char → Option Scanned
  | '-' :: '-' :: cs => scanLong? cs
  | '-' :: c :: cs => scanShort? (c :: cs)
  | cs => some ⟨[.file cs], .argument⟩

/-- The command line with items put before it. -/
def preceded (c : CommandLine) (items : List Item) : CommandLine := { c with items := items ++ c.items }

/-- Takes the arguments apart from a place where `next` has to be read. -/
def scanFrom? (next : Next) : List (List Char) → Option CommandLine
  | [] =>
    match next with
    | .argument => some ⟨[], none⟩
    | .value _ => none
    | .stop n => some ⟨[], some n⟩
  | arg :: args =>
    match next with
    | .argument =>
      if arg = ['-', '-'] then some ⟨args.map .file, none⟩
      else
        match scanArgument? arg with
        | none => none
        | some r => (scanFrom? r.next args).map (·.preceded r.items)
    | .value o =>
      if isOptionLike arg then none else (scanFrom? .argument args).map (·.preceded [.value o arg])
    | .stop n => some ⟨[], some n⟩

/-- Takes the arguments apart. -/
def scan? (args : List (List Char)) : Option CommandLine := scanFrom? .argument args

/-- What follows a request for a text is not looked at. -/
theorem scanFrom?_append {next : Next} {args : List (List Char)} {c : CommandLine} {n : Notice}
    (h : scanFrom? next args = some c) (hn : c.notice = some n) (more : List (List Char)) :
    scanFrom? next (args ++ more) = some c := by
  induction args generalizing next c with
  | nil =>
    cases next with
    | argument =>
      obtain rfl := Option.some.inj h
      simp at hn
    | value o => simp [scanFrom?] at h
    | stop m =>
      obtain rfl := Option.some.inj h
      cases more <;> rfl
  | cons arg args ih =>
    cases next with
    | argument =>
      rw [List.cons_append]
      unfold scanFrom? at h ⊢
      dsimp only at h ⊢
      split at h
      · obtain rfl := Option.some.inj h
        simp at hn
      · rename_i hdash
        rw [if_neg hdash]
        split at h
        · simp at h
        · obtain ⟨d, hd, rfl⟩ := Option.map_eq_some_iff.mp h
          rw [ih hd hn]
          rfl
    | value o =>
      rw [List.cons_append]
      unfold scanFrom? at h ⊢
      dsimp only at h ⊢
      split at h
      · simp at h
      · rename_i hvalue
        obtain ⟨d, hd, rfl⟩ := Option.map_eq_some_iff.mp h
        rw [if_neg hvalue, ih hd hn]
        rfl
    | stop m => exact h

end CommandLine

/-! ### Reading what was given -/

/-- What the arguments ask for. -/
structure Arguments where
  first : String
  second : String
  start1 : String
  start2 : String
  maxDepth : Option Nat
  maxLen : Option Nat
  unifyBounds : Bool
  filterShapes : Bool
  candidateLimit : Option Nat
  stepLimit : Option Nat
  verbose : Bool
  deriving DecidableEq, Repr

namespace Arguments

/-- Reads decimal digits, of which there must be at least one. -/
def digits? : List Char → Option Nat
  | [] => none
  | cs =>
    if cs.all Char.isDigit then some (cs.foldl (fun n c => 10 * n + (c.toNat - 48)) 0) else none

/-- Reads a number between `lo` and `hi`; a plus sign may precede it. -/
def number? (lo hi : Nat) (cs : List Char) : Option Nat :=
  let n := match cs with
    | '+' :: ds => digits? ds
    | ds => digits? ds
  n.filter fun n => lo ≤ n && n ≤ hi

/-- The greatest limit that can be given. -/
def maxLimit : Nat := 18446744073709551615

/-- The texts given for an option that takes a value. -/
def texts (items : List Item) (o : ValueOption) : List (List Char) :=
  items.filterMap fun
    | .value p text => if p = o then some text else none
    | _ => none

/-- The value of an option that may be missing, where `read` reads it; `none` if it is given twice
or cannot be read. -/
def value? {α : Type} (items : List Item) (o : ValueOption) (read : List Char → Option α) :
    Option (Option α) :=
  match texts items o with
  | [] => some none
  | [text] => (read text).map some
  | _ => none

/-- Whether a switch is given; `none` if it is given twice. -/
def switch? (items : List Item) (s : Switch) : Option Bool :=
  match items.countP (· == .switch s) with
  | 0 => some false
  | 1 => some true
  | _ => none

/-- The file names. -/
def names (items : List Item) : List (List Char) :=
  items.filterMap fun
    | .file name => some name
    | _ => none

/-- The two file names; `none` if there are not two or if one is empty. -/
def files? (items : List Item) : Option (String × String) :=
  match names items with
  | [u, v] => if u = [] ∨ v = [] then none else some (String.ofList u, String.ofList v)
  | _ => none

/-- What the items ask for besides the files; `none` if an option is given twice or unreadable. -/
def ofOptions? (first second : String) (items : List Item) : Option Arguments := do
  let start1 ← value? items .start1 fun cs => some (String.ofList cs)
  let start2 ← value? items .start2 fun cs => some (String.ofList cs)
  let maxDepth ← value? items .maxDepth (number? 3 15)
  let maxLen ← value? items .maxLen (number? 5 30)
  let candidateLimit ← value? items .candidateLimit (number? 0 maxLimit)
  let stepLimit ← value? items .stepLimit (number? 0 maxLimit)
  let unifyBounds ← switch? items .unifyBounds
  let filterShapes ← switch? items .structuralFilter
  let verbose ← switch? items .verbose
  return { first, second, start1 := start1.getD "S", start2 := start2.getD "S", maxDepth, maxLen,
           unifyBounds, filterShapes, candidateLimit, stepLimit, verbose }

/-- What the items ask for; `none` if something is missing, given twice or unreadable. -/
def ofItems? (items : List Item) : Option Arguments := do
  let (first, second) ← files? items
  ofOptions? first second items

/-- Whether the items are without fault, apart from file names that are still missing. -/
def acceptable (items : List Item) : Bool :=
  (names items).length ≤ 2 && (names items).all (!·.isEmpty) && (ofOptions? "" "" items).isSome

/-- Reads the arguments of a command line that asks for a run. -/
def parse? (args : List String) : Option Arguments :=
  match CommandLine.scan? (args.map String.toList) with
  | some ⟨items, none⟩ => ofItems? items
  | _ => none

/-- The text that a command line asks for in place of a run. -/
def notice? (args : List String) : Option Notice :=
  match CommandLine.scan? (args.map String.toList) with
  | some ⟨items, some n⟩ => if acceptable items then some n else none
  | _ => none

theorem notice?_append {args : List String} {n : Notice} (h : notice? args = some n)
    (more : List String) : notice? (args ++ more) = some n := by
  unfold notice? at h
  split at h
  · rename_i items m hscan
    unfold notice?
    rw [List.map_append, CommandLine.scan?, CommandLine.scanFrom?_append hscan rfl]
    exact h
  · simp at h

example : notice? ["u", "-vh", "--max-depth", "99"] = some .help := by decide +kernel

example : notice? ["--max-depth", "99", "-vh"] = none := by decide +kernel

end Arguments

end GrammarComparison
