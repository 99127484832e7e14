import Linework.Formula

/-!
# Scripts

A script is a block of statements and the functions defined in it. Every statement carries the
number of the line it begins on, counted from one.
-/

namespace Linework

/-- How an assignment combines the old value with the new one. -/
inductive AssignOp where
  | assign
  | add
  | subtract
  | multiply
  | divide
  | remainder
  deriving DecidableEq, Repr

/-- The value of the target after an assignment, from its current value and the right side. -/
def AssignOp.apply : AssignOp → Value → Value → Value
  | assign, _, value => value
  | add, current, value => current.plus value
  | subtract, current, value => current.minus value
  | multiply, current, value => current.times value
  | divide, current, value => current.dividedBy value
  | remainder, current, value => current.modulo value

/-- The operator of a compound assignment, by the character before `=`. -/
def AssignOp.ofChar? : Char → Option AssignOp
  | '+' => some add
  | '-' => some subtract
  | '*' => some multiply
  | '/' => some divide
  | '%' => some remainder
  | _ => none

/-- The two ways to end a round of a loop from inside. -/
inductive LoopWord where
  /-- Ends the loop. -/
  | leave
  /-- Goes on with the next round. -/
  | again
  deriving DecidableEq, Repr

/-- How the word is written. -/
def LoopWord.text : LoopWord → String
  | leave => "break"
  | again => "continue"

/-- A statement that fills one line and encloses no block. -/
inductive Instruction where
  /-- Evaluates a formula. -/
  | compute (formula : Formula)
  /-- Binds a name in the innermost scope. -/
  | declare (name : String) (value : Option Formula)
  /-- Changes a variable. -/
  | assign (name : String) (op : AssignOp) (value : Formula)
  /-- Ends the function or the script with a value. -/
  | yield (value : Option Formula)
  /-- Ends a round of the enclosing loop. -/
  | exit (word : LoopWord)

/-- A statement with the line it begins on. -/
inductive Statement where
  /-- A statement of one line. -/
  | plain (line : Nat) (instruction : Instruction)
  /-- Runs one of two blocks. -/
  | branch (line : Nat) (condition : Formula) (yes : List Statement)
      (no : Option (List Statement))
  /-- Runs a block as long as a condition holds. -/
  | loop (line : Nat) (condition : Formula) (body : List Statement)

/-- Statements that run one after the other. -/
abbrev Block := List Statement

/-- The line on which a statement begins. -/
def Statement.line : Statement → Nat
  | plain line _ | branch line _ _ _ | loop line _ _ => line

/-- A function defined in a script. -/
structure Definition where
  name : String
  params : List String
  body : Block

end Linework
