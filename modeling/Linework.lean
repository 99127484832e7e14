import Linework.CommandLine
import Linework.Expr.Print
import Linework.Main
import Linework.Proofs.Grammar
import Linework.Proofs.Parsing
import Linework.Proofs.Nesting
import Linework.Proofs.Agreement
import Linework.Proofs.Cancellation
import Linework.Proofs.LineText
import Linework.Proofs.Rendering
import Linework.Proofs.Balance
import Linework.Proofs.Frames
import Linework.Proofs.Reports
import Linework.Proofs.Renaming
import Linework.Proofs.Termination
import Linework.Proofs.StepBudget
import Linework.Proofs.Strays
import Linework.Proofs.Spacing
import Linework.Proofs.Tiling
import Linework.Proofs.Succession
import Linework.Proofs.ShortCircuit
import Linework.Proofs.Closing
import Linework.Proofs.Faults
import Linework.Proofs.ErrorColumn
import Linework.Proofs.Quoting
import Linework.Proofs.CompoundAssign
import Linework.Proofs.AssignmentLines
import Linework.Proofs.ParameterBinding
import Linework.Proofs.WholeWords
import Linework.Proofs.Reference
import Linework.Proofs.Readability
import Linework.Proofs.Comparison
import Linework.Proofs.CursorSafety
