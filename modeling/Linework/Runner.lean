import Linework.Session

/-!
# Running scripts for a user

A runner runs scripts one after the other on one engine and counts what it has to report: scripts
without blocks, runs that failed, warnings and errors.
-/

namespace Linework

/-- Why a file cannot be read. -/
inductive ReadError where
  | notFound
  | notUtf8
  | other (reason : String)
  deriving DecidableEq, Repr

/-- The wording of a reason. -/
def ReadError.message : ReadError → String
  | notFound => "No such file or directory (os error 2)"
  | notUtf8 => "stream did not contain valid UTF-8"
  | other reason => reason

/-- The text of a file. -/
def decodeText (bytes : ByteArray) : Except ReadError String :=
  match String.fromUTF8? bytes with
  | some text => .ok text
  | none => .error .notUtf8

/-- Why a script has no result. -/
inductive ScriptError where
  /-- Its file cannot be read. -/
  | unreadable (path : String) (reason : ReadError)
  /-- Its lines form no blocks. -/
  | layout (error : LayoutError)
  /-- Its run has failed. -/
  | run (error : RunError)
  deriving DecidableEq, Repr

/-- The wording of an error. -/
def ScriptError.message : ScriptError → String
  | unreadable path _ => "failed to read " ++ path
  | layout error => error.message
  | run error => error.message

/-- What has been reported. -/
structure Report where
  /-- Some script had no blocks. -/
  hadLayoutError : Bool
  /-- Some run has failed. -/
  hadRunError : Bool
  warnings : Nat
  errors : Nat
  deriving DecidableEq, Repr

namespace Report

/-- Nothing reported. -/
def empty : Report := ⟨false, false, 0, 0⟩

/-- Counts a diagnostic. -/
def addDiagnostic (r : Report) (d : Diagnostic) : Report :=
  match d.severity with
  | .warning => { r with warnings := r.warnings + 1 }
  | .error => { r with errors := r.errors + 1 }

/-- Counts diagnostics. -/
def addDiagnostics (r : Report) (ds : List Diagnostic) : Report := ds.foldl addDiagnostic r

/-- Takes note of how a run has ended. -/
def addResult (r : Report) : Except RunError Value → Report
  | .ok _ => r
  | .error _ => { r with hadRunError := true }

end Report

/-- An engine with what has been reported so far. -/
structure Runner where
  engine : Engine
  report : Report

namespace Runner

/-- A runner that has nothing to report yet. -/
def start (e : Engine) : Runner := ⟨e, Report.empty⟩

/-- Runs the text of a script. -/
def run (r : Runner) (fuel : Nat) (text : List Char) :
    Option (Except ScriptError Value × Runner) :=
  let (script, e) := r.engine.parse text
  match script with
  | .error error =>
    some (.error (.layout error), ⟨e, { r.report with hadLayoutError := true }⟩)
  | .ok script =>
    (e.run fuel script).map fun (result, e) =>
      let report := (r.report.addDiagnostics e.machine.diagnostics.toList).addResult result
      (result.mapError .run, ⟨e, report⟩)

/-- Runs a script from a file, whose content may be missing. -/
def runFile (r : Runner) (fuel : Nat) (path : String) (content : Except ReadError String) :
    Option (Except ScriptError Value × Runner) :=
  match content with
  | .ok text => r.run fuel text.toList
  | .error reason => some (.error (.unreadable path reason), r)

end Runner

end Linework
