import GrammarComparison.Proofs.Grammar.RuleText

/-! # Rule text line by line

A text is trimmed before it is cut into lines, and the pieces of a line are trimmed after it is cut at
its arrow and its bars.  The two do not interfere: white space at either end of a line changes nothing
(`Line.read_cons`, `Line.read_concat`), and neither does white space at either end of a text, be it
line breaks or part of the first or the last line (`lineProductions_cons`, `lineProductions_concat`).
So what a text declares is what all lines of the normalized text declare, one after another
(`productions_eq_lineProductions`). -/

namespace GrammarComparison.RuleText

variable {c : Char}

/-! ### White space around a line -/

/-- White space is no bar, so it ends the last alternative and is trimmed away. -/
theorem splitBars_concat (hc : Text.isBlank c = true) (cs : List Char) :
    splitBars (cs ++ [c]) = splitBars cs := by
  have hbar : c ≠ '|' := (Text.ne_of_not_isBlank (by decide) hc).symm
  obtain ⟨dss, ds, hcs, hconcat⟩ := exists_splitOn_concat hbar cs
  unfold splitBars
  rw [hcs, hconcat, List.map_append, List.map_append, List.map_singleton, List.map_singleton,
    Text.trim_concat_of_isBlank hc]

theorem splitRule?_cons (hc : Text.isBlank c = true) (cs : List Char) :
    splitRule? (c :: cs) = splitRule? cs := by
  have hnot : ¬ arrow <+: c :: cs := by
    rintro ⟨ds, hds⟩
    exact Text.ne_of_not_isBlank (by decide) hc (List.cons.inj hds).1
  unfold splitRule?
  rw [splitArrow?_cons hnot, Option.map_map]
  refine congrArg (Option.map · (splitArrow? cs)) (funext fun (u, v) => ?_)
  exact congrArg (·, splitBars v) (Text.trim_cons_of_isBlank hc u)

theorem splitRule?_concat (hc : Text.isBlank c = true) (cs : List Char) :
    splitRule? (cs ++ [c]) = splitRule? cs := by
  have harrow : c ≠ '>' := (Text.ne_of_not_isBlank (by decide) hc).symm
  unfold splitRule?
  rw [splitArrow?_concat harrow, Option.map_map]
  refine congrArg (Option.map · (splitArrow? cs)) (funext fun (u, v) => ?_)
  exact congrArg (Text.trim u, ·) (splitBars_concat hc v)

theorem Line.read_cons (hc : Text.isBlank c = true) (cs : List Char) :
    Line.read (c :: cs) = Line.read cs := by
  rw [Line.read, splitRule?_cons hc, Line.read]

theorem Line.read_concat (hc : Text.isBlank c = true) (cs : List Char) :
    Line.read (cs ++ [c]) = Line.read cs := by
  rw [Line.read, splitRule?_concat hc, Line.read]

theorem Line.read_dropReturn (cs : List Char) : Line.read (dropReturn cs) = Line.read cs := by
  unfold dropReturn
  split
  · rename_i hlast
    conv_rhs => rw [← List.dropLast_append_getLast? _ hlast]
    exact (Line.read_concat (by decide) _).symm
  · rfl

/-! ### White space around a text -/

/-- The rules that all lines of a text declare, blank lines included. -/
def lineProductions (cs : List Char) : List (NonTerminal × Word) :=
  (cs.splitOn '\n').flatMap fun l => (Line.read l).productions

theorem lineProductions_append (cs ds : List Char) :
    lineProductions (cs ++ '\n' :: ds) = lineProductions cs ++ lineProductions ds := by
  unfold lineProductions
  rw [List.splitOn_append_cons_self, List.flatMap_append]

theorem lineProductions_nil : lineProductions [] = [] := rfl

/-- A line break in front adds a blank line; other white space belongs to the first line. -/
theorem lineProductions_cons (hc : Text.isBlank c = true) (cs : List Char) :
    lineProductions (c :: cs) = lineProductions cs := by
  by_cases hbreak : c = '\n'
  · rw [hbreak]
    exact lineProductions_append [] cs
  · unfold lineProductions
    obtain ⟨l, ls, hls⟩ := List.exists_cons_of_ne_nil (List.splitOn_ne_nil '\n' cs)
    rw [List.splitOn_cons_eq_if_modifyHead, if_neg (by simpa using hbreak), hls,
      List.modifyHead_cons, List.flatMap_cons, List.flatMap_cons, Line.read_cons hc]

theorem lineProductions_concat (hc : Text.isBlank c = true) (cs : List Char) :
    lineProductions (cs ++ [c]) = lineProductions cs := by
  by_cases hbreak : c = '\n'
  · rw [hbreak, lineProductions_append, lineProductions_nil, List.append_nil]
  · obtain ⟨ls, l, hcs, hconcat⟩ := exists_splitOn_concat hbreak cs
    unfold lineProductions
    rw [hcs, hconcat, List.flatMap_append, List.flatMap_append, List.flatMap_singleton,
      List.flatMap_singleton, Line.read_concat hc]

/-- **A text declares what its lines declare**, line by line. -/
theorem productions_eq_lineProductions (cs : List Char) :
    productions cs = lineProductions (normalize cs) := by
  have htrim : lineProductions (Text.trim (normalize cs)) = lineProductions (normalize cs) :=
    Text.apply_trim (fun _ hc => lineProductions_cons hc) (fun _ hc => lineProductions_concat hc) _
  rw [← htrim]
  unfold productions lines
  split
  · rename_i hnil
    rw [hnil, lineProductions_nil]
    rfl
  · unfold lineProductions
    rw [List.flatMap_map]
    exact List.flatMap_congr fun l _ => congrArg Line.productions (Line.read_dropReturn l)

end GrammarComparison.RuleText
