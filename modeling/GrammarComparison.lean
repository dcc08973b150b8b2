import GrammarComparison.Main
import GrammarComparison.Proofs.Comparison.RuleOrder
import GrammarComparison.Proofs.Derivation.Markers
import GrammarComparison.Proofs.Enumeration.Characters
import GrammarComparison.Proofs.Enumeration.Course
import GrammarComparison.Proofs.Enumeration.Reachable
import GrammarComparison.Proofs.Enumeration.Saturation
import GrammarComparison.Proofs.Enumeration.StepLimit
import GrammarComparison.Proofs.Grammar.Diagnosis
import GrammarComparison.Proofs.Grammar.Layout
import GrammarComparison.Proofs.Grammar.Operations
import GrammarComparison.Proofs.Grammar.RuleLanguage
import GrammarComparison.Proofs.Program.ExitCode
import GrammarComparison.Proofs.Renaming.Filter
import GrammarComparison.Proofs.Renaming.Inclusion
import GrammarComparison.Proofs.Renaming.Sequence
import GrammarComparison.Proofs.Shape.Counts
import GrammarComparison.Proofs.Shape.Invariance
import GrammarComparison.Text.Uppercase
