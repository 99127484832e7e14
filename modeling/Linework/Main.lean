import Linework.CommandLine

/-!
# The program

Reads the script file named on the command line and runs it.
-/

open Linework

/-- The content of a file. -/
def readScriptFile (path : String) : IO (Except ReadError String) := do
  try
    return decodeText (← IO.FS.readBinFile path)
  catch e =>
    match e with
    | .noFileOrDirectory _ _ _ => return .error .notFound
    | e => return .error (.other (toString e))

/-- The number in the line of a text that begins with a word. -/
def numberAfter? (word text : String) : Option Nat :=
  (text.splitOn "\n").findSome? fun line =>
    match line.splitOn " " with
    | [first, number] => if first = word then number.toNat? else none
    | _ => none

/-- The time in milliseconds since the epoch, from when the system was started and how long it has
been running. -/
def timeNow : IO (Option Nat) := do
  try
    let booted := numberAfter? "btime" (← IO.FS.readFile "/proc/stat")
    let running ← IO.monoMsNow
    return booted.map fun seconds => 1000 * seconds + running
  catch _ => return none

/-- Runs the program and gives its exit code. -/
def main (arguments : List String) : IO UInt32 := do
  let outcome ← match CommandLine.Request.ofArguments arguments with
    | .run path options => do
      let content ← readScriptFile path
      let now ← timeNow
      pure ((CommandLine.runScript options path content now).getD ⟨70, "", ""⟩)
    | request => pure (CommandLine.answer request)
  (← IO.getStdout).putStr outcome.output
  (← IO.getStderr).putStr outcome.messages
  return outcome.code.toUInt32
