import Linework.Script
import Linework.Event

/-!
# Interrupts

What ends a block before its last statement: a word that ends a round of a loop, a value handed
back, or an error that ends the whole run. `Interrupt.resolve` says what is left of an interrupt at
the border of a function or script.
-/

namespace Linework

/-- What ends a run for good. -/
inductive RunError where
  /-- A loop word outside of any loop. -/
  | strayLoopWord (word : LoopWord) (line : Nat)
  /-- A limit is exceeded. -/
  | cancelled (line : Nat) (reason : Cancellation)
  deriving DecidableEq, Repr

/-- The line that an error points to. -/
def RunError.line : RunError → Nat
  | strayLoopWord _ line | cancelled line _ => line

/-- The wording of an error. -/
def RunError.message : RunError → String
  | strayLoopWord word line =>
    s!"[line {line}] Error: Unexpected " ++ word.text ++ " statement outside of a loop"
  | cancelled line reason =>
    s!"[line {line}] Error: Execution cancelled, " ++ reason.message

/-- What ends a block early. -/
inductive Interrupt where
  /-- A loop word looks for its loop. -/
  | exit (word : LoopWord) (line : Nat)
  /-- A value is handed back. -/
  | yield (value : Value) (line : Nat)
  /-- The run is over. -/
  | abort (error : RunError)

namespace Interrupt

/-- The wording of an interrupt that nothing has caught. -/
def message : Interrupt → String
  | exit word line => s!"[line {line}] Unexpected " ++ word.text ++ " statement"
  | yield _ line => s!"[line {line}] Unexpected return statement"
  | abort error => error.message

/-- What the end of a body amounts to: without an interrupt nothing is handed back, and a loop
word that has found no loop is an error. -/
def resolve : Except Interrupt Unit → Except RunError Value
  | .ok () => .ok .undefined
  | .error (yield value _) => .ok value
  | .error (exit word line) => .error (.strayLoopWord word line)
  | .error (abort error) => .error error

end Interrupt

end Linework
