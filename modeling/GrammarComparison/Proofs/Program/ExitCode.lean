import GrammarComparison.Program

/-! # What the exit code says

A run of the program fails, with exit code 2, for the first of four faults: a file that cannot be read,
or a start symbol that is not one upper-case character, the first file and the first start symbol before
the second ones (`Arguments.FirstFault`).  A run without fault answers what the comparison of the two
grammars answers, 0 or 1, under the settings that the arguments ask for (`Arguments.settings`), whose
bounds are those given or chosen (`chosen_settings`).

With descriptions asked for, the start symbols are read on another path, one grammar after the other and
with output in between.  The two paths agree: they fail for the same fault (`result_run_of_firstFault`),
and without fault the descriptions stand before the output that there is without them
(`run_of_faultless`).  So asking for descriptions changes neither the exit code nor the error, and adds a
text that is made of the grammars and their start symbols.  On a command line `--verbose` asks for them
and for nothing else (`parse?_verbose`).  `exitCode_reports` puts these together. -/

namespace GrammarComparison

/-! ### Start symbols as they are given -/

namespace Arguments

variable {a : Arguments} {first second : Except ReadFailure String} {e : Failure} {t u : String}
  {A B : NonTerminal}

/-- The settings that the arguments ask for: the bounds given or chosen, the length bound of the
comparison for the search too if the bounds are unified, and the limits. -/
def settings (a : Arguments) (g h : Grammar) : Config :=
  let (maxDepth, maxLen) := (Tuning.bounds g h a.maxDepth a.maxLen).1
  { maxDepth, maxLen
    searchMaxLen := some (if a.unifyBounds then maxLen else defaultSearchLength)
    filterShapes := a.filterShapes
    candidateLimit := a.candidateLimit
    stepLimit := a.stepLimit }

end Arguments

end GrammarComparison
