import Linework.SyntaxError

/-!
# Diagnostics

What a script is told about without being stopped: names that are not declared, formulas that
cannot be read and blocks that are not closed.
-/

namespace Linework

/-- How bad a diagnostic is. -/
inductive Severity where
  | warning
  | error
  deriving DecidableEq, Repr

/-- The word for a severity. -/
def Severity.word : Severity → String
  | warning => "Warning"
  | error => "Error"

/-- What a diagnostic is about. -/
inductive Diagnostic.Cause where
  | undeclaredVariable (name : String)
  | undeclaredFunction (name : String)
  | undeclaredAssignment (name : String)
  /-- A formula without a tree, with its text. -/
  | badFormula (error : SyntaxError) (source : String)
  /-- A block that the end of the script closes. -/
  | unclosedBlock
  deriving DecidableEq, Repr

/-- A diagnostic and the line it points to; line zero stands before the first statement. -/
structure Diagnostic where
  line : Nat
  cause : Diagnostic.Cause
  deriving DecidableEq, Repr

namespace Diagnostic

/-- Only a faulty formula is an error. -/
def severity (d : Diagnostic) : Severity :=
  match d.cause with
  | .badFormula _ _ => .error
  | _ => .warning

/-- The wording of a diagnostic. -/
def message (d : Diagnostic) : String :=
  match d.cause with
  | .undeclaredVariable name => "Usage of undeclared variable: " ++ name
  | .undeclaredFunction name => "Usage of undeclared function: " ++ name
  | .undeclaredAssignment name => "Assignment to undeclared variable: " ++ name
  | .badFormula e source => e.message ++ " in '" ++ source ++ "'"
  | .unclosedBlock => s!"Block opened on line {d.line} is never closed with 'end'"

/-- A diagnostic with its line and severity. -/
def text (d : Diagnostic) : String :=
  s!"[line {d.line}] " ++ d.severity.word ++ ": " ++ d.message

end Diagnostic

end Linework
