import Linework.Machine.Evaluate

/-!
# Executing statements

Blocks run their statements in order until one interrupts. Every statement and every round of a
loop pays a step. Calls are left to a parameter, and `fuel` bounds the rounds of each loop, so that
execution is a recursion over the block alone.
-/

namespace Linework

/-- Executes a statement of one line. -/
def Instruction.execute (invoke : Invoke) (line : Nat) : Instruction → Run Unit
  | .compute formula => do
    let _ ← formula.eval invoke
  | .declare name value => do
    let v ← Formula.evalOptional invoke value
    Run.declare name v
  | .assign name op value => do
    let v ← value.eval invoke
    Run.store name op v
  | .yield value => do
    let v ← Formula.evalOptional invoke value
    throw (.yield v line)
  | .exit word => throw (.exit word line)

/-- What the end of a round means for the loop: whether it goes on. -/
def afterRound : Except Interrupt Unit → Run Bool
  | .ok () | .error (.exit .again _) => pure true
  | .error (.exit .leave _) => pure false
  | .error i => throw i

/-- Rounds of a loop that begins on a line. Each tests the condition, pays a step and runs the
body. -/
def rounds (limits : Limits) (line : Nat) (condition : Run Value) (body : Run Unit) :
    (fuel : Nat) → Run Unit
  | 0 => Run.outOfFuel
  | fuel + 1 => do
    Run.atLine line
    let v ← condition
    if v.isTruthy then
      Run.spend limits
      let r ← Run.attempt body
      if ← afterRound r then rounds limits line condition body fuel

section

variable (limits : Limits) (invoke : Invoke) (fuel : Nat)

mutual

/-- Executes a statement. -/
def Statement.execute : Statement → Run Unit
  | .plain line instruction => do
    Run.atLine line
    instruction.execute invoke line
  | .branch line condition yes no => do
    Run.atLine line
    let v ← condition.eval invoke
    if v.isTruthy then executeBlock yes else executeElse no
  | .loop line condition body =>
    rounds limits line (condition.eval invoke) (executeBlock body) fuel
termination_by structural s => s

/-- Executes the statements of a block in order. -/
def executeBlock : List Statement → Run Unit
  | [] => pure ()
  | s :: rest => do
    Run.atLine s.line
    Run.spend limits
    s.execute
    executeBlock rest
termination_by structural b => b

/-- Executes the other block of a branch, if it has one. -/
def executeElse : Option (List Statement) → Run Unit
  | none => pure ()
  | some block => executeBlock block
termination_by structural b => b

end

end

end Linework
