import Linework.Runner
import Linework.Random

/-!
# The command line

Reading the arguments and running a script file, as functions on texts. The arguments are read from
left to right and the first mistake counts; asking for the version or for help ends the reading.
-/

namespace Linework.CommandLine

/-- What is known after reading some of the arguments. -/
structure Options where
  script : Option String
  maxSteps : Option Nat
  timeout : Option Nat
  maxCallDepth : Option Nat
  seed : Option Nat
  verbose : Bool
  deriving DecidableEq, Repr

/-- No arguments read. -/
def Options.unset : Options := ⟨none, none, none, none, none, false⟩

/-- What the arguments ask for. -/
inductive Request where
  /-- Runs a script. -/
  | run (path : String) (options : Options)
  | version
  | help
  /-- The arguments make no sense. -/
  | misuse
  deriving DecidableEq, Repr

/-- The options that take a number. -/
inductive Setting where
  | maxSteps
  | timeout
  | maxCallDepth
  | seed
  deriving DecidableEq, Repr

/-- The setting of a long option. -/
def Setting.ofName? : List Char → Option Setting
  | name =>
    if name = "max-steps".toList then some .maxSteps
    else if name = "timeout-ms".toList then some .timeout
    else if name = "max-call-depth".toList then some .maxCallDepth
    else if name = "seed".toList then some .seed
    else none

/-- A number of 64 bits, with an optional plus sign. -/
def readNumber? (text : List Char) : Option Nat :=
  let digits := match text with
    | '+' :: rest => rest
    | _ => text
  if digits ≠ [] ∧ digits.all Char.isDigit then
    some (Decimal.digitsValue digits) |>.filter (· < UInt64.size)
  else none

/-- The value of a setting so far. -/
def Options.get? (o : Options) : Setting → Option Nat
  | .maxSteps => o.maxSteps
  | .timeout => o.timeout
  | .maxCallDepth => o.maxCallDepth
  | .seed => o.seed

/-- Sets a setting. -/
def Options.put (o : Options) (n : Nat) : Setting → Options
  | .maxSteps => { o with maxSteps := some n }
  | .timeout => { o with timeout := some n }
  | .maxCallDepth => { o with maxCallDepth := some n }
  | .seed => { o with seed := some n }

/-- Gives a setting its value, which has to be a number, for the first time. -/
def Options.give? (o : Options) (setting : Setting) (text : List Char) : Option Options :=
  if (o.get? setting).isSome then none else (readNumber? text).map (o.put · setting)

/-- Asks for the log, for the first time. -/
def Options.beVerbose? (o : Options) : Option Options :=
  if o.verbose then none else some { o with verbose := true }

/-- Names the script, for the first time. -/
def Options.name? (o : Options) (path : String) : Option Options :=
  if o.script.isSome || path.isEmpty then none else some { o with script := some path }

/-- What a group of one-letter options asks for, if that settles the request. -/
def readLetters (o : Options) : List Char → Except Request Options
  | [] => .ok o
  | 'v' :: rest =>
    match o.beVerbose? with
    | some o => readLetters o rest
    | none => .error .misuse
  | 'V' :: _ => .error .version
  | 'h' :: _ => .error .help
  | _ => .error .misuse

/-- What a long option without a value asks for. -/
def readWord (o : Options) (name : List Char) : Except Request Options :=
  if name = "verbose".toList then
    match o.beVerbose? with
    | some o => .ok o
    | none => .error .misuse
  else if name = "version".toList then .error .version
  else if name = "help".toList then .error .help
  else .error .misuse

/-- Whether an argument is an option and no value. A lone dash is a value. -/
def isOption (argument : List Char) : Bool :=
  argument.head? = some '-' && argument.length ≠ 1

/-- An argument that names the script. -/
def readScript (o : Options) (argument : String) : Except Request Options :=
  match o.name? argument with
  | some o => .ok o
  | none => .error .misuse

/-- Arguments after `--`, which are no options. -/
def readPlain (o : Options) : List String → Except Request Options
  | [] => .ok o
  | argument :: rest => do
    let o ← readScript o argument
    readPlain o rest

/-- The value given to a setting. -/
def readSetting (o : Options) (setting : Setting) (value : List Char) :
    Except Request Options :=
  match o.give? setting value with
  | some o => .ok o
  | none => .error .misuse

/-- Reads arguments from left to right. `waiting` is a setting that still needs its value. -/
def readArguments (o : Options) (waiting : Option Setting) : List String → Except Request Options
  | [] => if waiting.isSome then .error .misuse else .ok o
  | argument :: rest =>
    let text := argument.toList
    match waiting with
    | some setting => do
      if isOption text then .error .misuse
      let o ← readSetting o setting text
      readArguments o none rest
    | none =>
      if isOption text then
        match text.drop 1 with
        | ['-'] => readPlain o rest
        | '-' :: long =>
          match Line.cut? '=' long with
          | some (name, value) =>
            match Setting.ofName? name with
            | some setting => do
              let o ← readSetting o setting value
              readArguments o none rest
            | none => .error .misuse
          | none =>
            match Setting.ofName? long with
            | some setting => readArguments o (some setting) rest
            | none => do
              let o ← readWord o long
              readArguments o none rest
        | letters => do
          let o ← readLetters o letters
          readArguments o none rest
      else do
        let o ← readScript o argument
        readArguments o none rest

/-- What the arguments ask for. -/
def Request.ofArguments (arguments : List String) : Request :=
  match readArguments .unset none arguments with
  | .error request => request
  | .ok o =>
    match o.script with
    | some path => .run path o
    | none => .misuse

/-- What the program leaves behind: its exit code and what it has written. -/
structure Outcome where
  code : UInt8
  output : String
  messages : String

/-- Lines, each with its end. -/
def joinLines (lines : List String) : String := String.join (lines.map (· ++ "\n"))

/-- The version text. -/
def versionText : String := "brushscript 0.1.0"

/-- The help text. -/
def helpText : String :=
  "Run a brushscript file\n\nUsage: brushscript [OPTIONS] <SCRIPT>\n\n"
    ++ "Options:\n"
    ++ "      --max-steps <N>       Stop after this many executed instructions\n"
    ++ "      --timeout-ms <N>      Stop after this many milliseconds\n"
    ++ "      --max-call-depth <N>  Maximum nesting of script function calls\n"
    ++ "      --seed <N>            Seed for the random range literals\n"
    ++ "  -v, --verbose             Trace parsing and execution on stderr\n"
    ++ "  -h, --help                Print help\n"
    ++ "  -V, --version             Print version"

/-- The limits that the options ask for. -/
def Options.limits (o : Options) : Limits where
  maxSteps := o.maxSteps.map UInt64.ofNat
  timeout := o.timeout.map (1000000 * ·)
  maxCallDepth := o.maxCallDepth.getD Limits.default.maxCallDepth

/-- The exit code for what has been reported. -/
def exitCode (report : Report) (result : Except ScriptError Value) : UInt8 :=
  if report.hadLayoutError then 65
  else if report.hadRunError then 70
  else match result with
    | .ok _ => 0
    | .error _ => 1

/-- The messages about the end of a script: its diagnostics and its error. -/
def closingMessages (diagnostics : List Diagnostic) : Except ScriptError Value → List String
  | .error (.unreadable _ _) => []
  | .error (.layout error) => [error.message]
  | .error (.run error) => diagnostics.map (·.text) ++ [error.message]
  | .ok _ => diagnostics.map (·.text)

/-- The last message, about a file that cannot be read. -/
def lastMessage : Except ScriptError Value → String
  | .error (.unreadable path reason) =>
    "Error: failed to read " ++ path ++ "\n\nCaused by:\n    " ++ reason.message ++ "\n"
  | _ => ""

/-- Time as it is counted in steps: each is taken to last a microsecond. -/
def stepWatch : Watch := fun ticks => 1000 * ticks

/-- Runs a script file at a time, in milliseconds since the epoch. The log comes before the
messages, and the sum of all reports after them. -/
def runScript (o : Options) (path : String) (content : Except ReadError String)
    (now : Option Nat) : Option Outcome :=
  let random := Random.ofSeed (UInt64.ofNat (o.seed.getD 0))
  let engine := (Engine.new random (Feed.constant now) stepWatch).setLimits o.limits
  ((Runner.start engine).runFile Engine.ampleFuel path content).map fun (result, r) =>
    let machine := r.engine.machine
    let log := if o.verbose then machine.log.toList.map (·.logLine) else []
    let sum := if o.verbose then
        [(Event.summed r.report.warnings r.report.errors).logLine]
      else []
    { code := exitCode r.report result
      output := joinLines machine.console.lines.toList
      messages :=
        joinLines (log ++ closingMessages machine.diagnostics.toList result ++ sum)
          ++ lastMessage result }

/-- Answers the requests that need no file. -/
def answer : Request → Outcome
  | .version => ⟨0, versionText ++ "\n", ""⟩
  | .help => ⟨0, helpText ++ "\n", ""⟩
  | _ => ⟨64, "", "Usage: brushscript [OPTIONS] <SCRIPT>\n"⟩

end Linework.CommandLine
