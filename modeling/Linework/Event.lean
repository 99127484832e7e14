import Linework.Diagnostic

/-!
# Log events

What the program can report about its own work, as data. Each event has a level, the part of the
program it comes from and a wording.
-/

namespace Linework

/-- Why a run was cut short. -/
inductive Cancellation where
  /-- More statements than allowed. -/
  | stepLimit (limit : UInt64)
  /-- More nanoseconds than allowed. -/
  | timeLimit (limit : Nat)
  /-- More function calls within each other than allowed. -/
  | callDepth (limit : Nat)
  deriving DecidableEq, Repr

/-- The wording of a cancellation. Times are told in whole milliseconds. -/
def Cancellation.message : Cancellation → String
  | stepLimit limit => s!"step limit of {limit.toNat} exceeded"
  | timeLimit limit => s!"time limit of {limit / 1000000}ms exceeded"
  | callDepth limit => s!"call depth limit of {limit} exceeded"

/-- The importance of an event. -/
inductive Event.Level where
  | trace
  | debug
  | warn
  deriving DecidableEq, Repr

/-- The word for a level. -/
def Event.Level.word : Event.Level → String
  | trace => "TRACE"
  | debug => "DEBUG"
  | warn => "WARN"

/-- Something worth a line in the log. -/
inductive Event where
  /-- A line begins a function. -/
  | functionBegins (line : Nat) (name : String) (params : List String)
  /-- A line ends the block that another line has begun. -/
  | blockEnds (line opened : Nat)
  /-- A script function is called. -/
  | calling (name : String) (arguments : Nat)
  /-- A script function becomes known. -/
  | registering (name : String)
  /-- A diagnostic is recorded. -/
  | diagnosed (diagnostic : Diagnostic)
  /-- A limit is exceeded. -/
  | cancelling (line : Nat) (reason : Cancellation)
  /-- A run is over. -/
  | finished (steps : UInt64) (diagnostics : Nat)
  /-- A line of output is lost. -/
  | outputLost
  /-- All reports of the program are counted. -/
  | summed (warnings errors : Nat)
  deriving DecidableEq, Repr

namespace Event

/-- The importance of an event. -/
def level : Event → Level
  | functionBegins _ _ _ | blockEnds _ _ | calling _ _ => .trace
  | registering _ | diagnosed _ | cancelling _ _ | finished _ _ | summed _ _ => .debug
  | outputLost => .warn

/-- The part of the program that an event comes from. -/
def origin : Event → String
  | functionBegins _ _ _ | blockEnds _ _ => "brushscript::block_parser"
  | calling _ _ => "brushscript::interpreter::func"
  | registering _ | diagnosed _ | cancelling _ _ | finished _ _ | outputLost =>
    "brushscript::interpreter::itpr"
  | summed _ _ => "brushscript"

/-- The wording of an event. -/
def message : Event → String
  | functionBegins line name params =>
    s!"line {line}: function {name}(" ++ ", ".intercalate params ++ ")"
  | blockEnds line opened => s!"line {line}: closing block opened on line {opened}"
  | calling name arguments => s!"calling {name} with {arguments} argument(s)"
  | registering name => s!"registering <fn {name}>"
  | diagnosed diagnostic => diagnostic.text
  | cancelling line reason => s!"cancelling run at line {line}: " ++ reason.message
  | finished steps diagnostics =>
    s!"run finished after {steps.toNat} step(s) with {diagnostics} diagnostic(s)"
  | outputLost => "failed to write script output: sink closed"
  | summed warnings errors => s!"{warnings} warning(s), {errors} error(s) reported"

/-- An event on one line. -/
def text (e : Event) : String := e.level.word ++ " " ++ e.origin ++ " " ++ e.message

/-- An event on one line of a log for reading, the level filled up to five characters. -/
def logLine (e : Event) : String :=
  let word := e.level.word
  word ++ String.ofList (List.replicate (5 - word.length) ' ') ++ " - " ++ e.origin ++ " - "
    ++ e.message

end Event

end Linework
