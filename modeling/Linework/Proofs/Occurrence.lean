import Mathlib.Tactic.Lemma
import Linework.Script.Layout

/-!
# What occurs in a script

The variables and the called functions of an expression, the one formula that a statement evaluates
itself, and the statements of a script at any nesting. A statement owns its value or its condition;
what its inner blocks evaluate belongs to the statements there.
-/

namespace Linework

namespace Expr

mutual

/-- The variables of an expression. -/
def refs : Expr → List String
  | .literal _ => []
  | .ref name => [name.lexeme]
  | .group inner => inner.refs
  | .unary _ right => right.refs
  | .binary left _ right => left.refs ++ right.refs
  | .call _ arguments => refsAll arguments
  | .range low high _ => low.refs ++ high.refs
  | .logic first rest => first.refs ++ refsLogic rest
termination_by structural e => e

/-- The variables of some expressions. -/
def refsAll : List Expr → List String
  | [] => []
  | e :: es => e.refs ++ refsAll es
termination_by structural es => es

/-- The variables of the rest of a chain of conditions. -/
def refsLogic : List (Token × Expr) → List String
  | [] => []
  | (_, e) :: rest => e.refs ++ refsLogic rest
termination_by structural es => es

end

mutual

/-- The names of the functions that an expression calls. -/
def callees : Expr → List String
  | .literal _ | .ref _ => []
  | .group inner => inner.callees
  | .unary _ right => right.callees
  | .binary left _ right => left.callees ++ right.callees
  | .call callee arguments => callee.lexeme :: calleesAll arguments
  | .range low high _ => low.callees ++ high.callees
  | .logic first rest => first.callees ++ calleesLogic rest
termination_by structural e => e

/-- The functions that some expressions call. -/
def calleesAll : List Expr → List String
  | [] => []
  | e :: es => e.callees ++ calleesAll es
termination_by structural es => es

/-- The functions that the rest of a chain of conditions calls. -/
def calleesLogic : List (Token × Expr) → List String
  | [] => []
  | (_, e) :: rest => e.callees ++ calleesLogic rest
termination_by structural es => es

end

end Expr

namespace Formula

/-- The tree of a formula, if it has one. -/
def tree? (f : Formula) : Option Expr := f.compiled.toOption

/-- The variables of a formula; one without a tree has none. -/
def refs (f : Formula) : List String := f.tree?.elim [] Expr.refs

/-- The functions that a formula calls. -/
def callees (f : Formula) : List String := f.tree?.elim [] Expr.callees

end Formula

/-- The formula that a statement of one line evaluates. -/
def Instruction.formula? : Instruction → Option Formula
  | .compute formula | .assign _ _ formula => some formula
  | .declare _ value | .yield value => value
  | .exit _ => none

/-- The name that a statement of one line assigns to. -/
def Instruction.target? : Instruction → Option String
  | .assign name _ _ => some name
  | _ => none

/-- The name that a statement of one line declares. -/
def Instruction.declared? : Instruction → Option String
  | .declare name _ => some name
  | _ => none

namespace Statement

/-- The formula that a statement evaluates itself: its value or its condition. -/
def formula? : Statement → Option Formula
  | .plain _ instruction => instruction.formula?
  | .branch _ condition _ _ | .loop _ condition _ => some condition

/-- The name that a statement assigns to. -/
def target? : Statement → Option String
  | .plain _ instruction => instruction.target?
  | _ => none

/-- The name that a statement declares. -/
def declared? : Statement → Option String
  | .plain _ instruction => instruction.declared?
  | _ => none

/-- Whether a statement is a loop. -/
def isLoop : Statement → Bool
  | .loop _ _ _ => true
  | _ => false

/-- The variables, assigned names and declared names of a statement, without its inner blocks. -/
def names (s : Statement) : List String :=
  s.formula?.elim [] Formula.refs ++ s.target?.toList ++ s.declared?.toList

end Statement

mutual

/-- A statement and all statements inside of it. -/
def Statement.parts : Statement → List Statement
  | .plain line instruction => [.plain line instruction]
  | .branch line condition yes no =>
    .branch line condition yes no :: (statements yes ++ statementsElse no)
  | .loop line condition body => .loop line condition body :: statements body
termination_by structural s => s

/-- The statements of a block, at any nesting. -/
def statements : List Statement → List Statement
  | [] => []
  | s :: rest => s.parts ++ statements rest
termination_by structural b => b

/-- The statements of the other block of a branch. -/
def statementsElse : Option (List Statement) → List Statement
  | none => []
  | some block => statements block
termination_by structural b => b

end

/-- A statement is the first of its parts. -/
lemma Statement.mem_parts (s : Statement) : s ∈ s.parts := by
  cases s <;> exact List.mem_cons_self

/-- The loop word that a statement of one line consists of. -/
def Instruction.word? : Instruction → Option LoopWord
  | .exit word => some word
  | _ => none

mutual

/-- The loop words in a statement that no loop in it encloses, with their lines. -/
def Statement.strays : Statement → List (LoopWord × Nat)
  | .plain line instruction => instruction.word?.toList.map (·, line)
  | .branch _ _ yes no => strays yes ++ straysElse no
  | .loop _ _ _ => []
termination_by structural s => s

/-- The loop words in a block that no loop in it encloses, with their lines. -/
def strays : List Statement → List (LoopWord × Nat)
  | [] => []
  | s :: rest => s.strays ++ strays rest
termination_by structural b => b

/-- The stray loop words of the other block of a branch. -/
def straysElse : Option (List Statement) → List (LoopWord × Nat)
  | none => []
  | some block => strays block
termination_by structural b => b

end

/-- The statements of a script, at any nesting in its block or in the body of a function. -/
def Script.statements (script : Script) : List Statement :=
  Linework.statements script.block ++ script.functions.flatMap (Linework.statements ·.body)

/-- The loop words of a script that no loop encloses in the body they belong to. -/
def Script.strays (script : Script) : List (LoopWord × Nat) :=
  Linework.strays script.block ++ script.functions.flatMap (Linework.strays ·.body)

end Linework
