import Linework.Machine.Call
import Linework.Script.Layout
import Linework.Host.Builtin
import Linework.Host.Toolkit

/-!
# The engine

A machine together with the functions that its host offers and the limits of its runs. The engine
lives on from one run to the next: a run starts with a fresh root context, budget and list of
diagnostics, while the random numbers, the time, the output and the log go on.
-/

namespace Linework

/-- A machine with the functions of its host and the limits of its runs. -/
structure Engine where
  natives : List Function
  limits : Limits
  machine : Machine

namespace Engine

/-- An engine with the built-in functions, in surroundings that supply random numbers and the
time. -/
def new (random : Feed Float) (clock : Feed (Option Nat)) (watch : Watch) : Engine where
  natives := Host.builtins
  limits := Limits.default
  machine :=
    { scope := ⟨none, [], 0⟩
      budget := Budget.empty
      line := 0
      diagnostics := #[]
      random := random
      console := ⟨#[], false⟩
      log := #[]
      nextIdentity := 0
      memory := []
      clock := clock
      watch := watch }

/-- An engine in surroundings where nothing happens: every number is zero, there is no time, and
none passes. -/
def quiet : Engine := new (Feed.constant 0) (Feed.constant none) fun _ => 0

/-- More fuel than any run can use up in a lifetime. -/
def ampleFuel : Nat := 1000000000000000000

/-- The ratio of a circle's circumference to its diameter. -/
def pi : Float := Float.ofBits 0x400921fb54442d18

/-- The variables that every script finds. -/
def globals : Bindings :=
  [("PI", .number pi), ("true", .bool true), ("false", .bool false), ("null", .null)]

/-- A fresh root frame with the globals and the functions of the host. -/
def rootFrame (e : Engine) : Frame := ⟨globals, e.natives⟩

/-- Offers a function to every root made from now on. -/
def register (e : Engine) (f : Function) : Engine := { e with natives := e.natives ++ [f] }

/-- Offers a tool under a name. -/
def registerTool (e : Engine) (tool : Host.Tool) (name : String) : Engine :=
  e.register (tool.toFunction name e.natives.length)

/-- Offers all tools under their own names. -/
def registerToolkit (e : Engine) : Engine :=
  Host.Tool.all.foldl (fun e tool => e.registerTool tool tool.name) e

/-- Sets the limits of later runs. -/
def setLimits (e : Engine) (limits : Limits) : Engine := { e with limits := limits }

/-- Supplies other random numbers. -/
def setRandom (e : Engine) (random : Feed Float) : Engine :=
  { e with machine := { e.machine with random := random } }

/-- Leaves the identities below `n` to objects that the host has made itself. -/
def reserveIdentities (e : Engine) (n : Nat) : Engine :=
  { e with machine := { e.machine with nextIdentity := max n e.machine.nextIdentity } }

/-- Makes the console lose its lines. -/
def breakConsole (e : Engine) : Engine := { e with machine.console.broken := true }

/-- Adds to the log. -/
def addLog (e : Engine) (events : List Event) : Engine :=
  { e with machine := { e.machine with log := e.machine.log ++ events.toArray } }

/-- Keeps something for the functions of the host. -/
def remember (e : Engine) (key : String) (value : Value) : Engine :=
  { e with machine := { e.machine with memory := e.machine.memory.put key value } }

/-- Does an action on the machine. -/
def perform {α : Type} (e : Engine) (action : Run α) : Option (Except Interrupt α × Engine) :=
  (action.on e.machine).map fun (r, m) => (r, { e with machine := m })

/-- Writes a line of output. -/
def print (e : Engine) (line : String) : Engine :=
  match e.perform (Run.print line) with
  | some (_, e) => e
  | none => e

end Engine

/-- The machine at the beginning of a run. -/
def Machine.restart (m : Machine) (root : Frame) (script : Script) : Machine :=
  { m with
    scope := Scope.above none
      { root with functions := root.functions ++ script.functions.map Definition.toFunction }
      m.scope.contexts
    budget := Budget.empty
    line := 0
    diagnostics := script.warnings.toArray
    log := m.log ++ (script.functions.map fun d => Event.registering d.name).toArray }

/-- Runs a script on a machine whose host offers the given root frame. -/
def Machine.run (m : Machine) (limits : Limits) (fuel : Nat) (root : Frame) (script : Script) :
    Option (Except RunError Value × Machine) :=
  ((execute limits fuel script.block).on (m.restart root script)).map fun (r, m) =>
    (Interrupt.resolve r,
      { m with log := m.log.push (.finished m.budget.steps m.diagnostics.size) })

/-- Runs a script in a fresh root. -/
def Engine.run (e : Engine) (fuel : Nat) (script : Script) :
    Option (Except RunError Value × Engine) :=
  (e.machine.run e.limits fuel e.rootFrame script).map fun (r, m) => (r, { e with machine := m })

end Linework
