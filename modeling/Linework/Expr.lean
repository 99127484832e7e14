import Linework.Token

/-!
# Expression trees

The tree of an expression. Operators and names keep their tokens: evaluation looks at the kind of
an operator, printing at its characters.
-/

namespace Linework

/-- How a random range rounds. -/
inductive RangeMode where
  /-- To an integer if both bounds are integers. -/
  | auto
  /-- Always to an integer. -/
  | integer
  /-- Never. -/
  | real
  deriving DecidableEq, Repr

/-- An expression. -/
inductive Expr where
  /-- A value written in the text. -/
  | literal (value : Value)
  /-- A variable. -/
  | ref (name : Token)
  /-- An expression in parentheses. -/
  | group (inner : Expr)
  /-- An operator before its operand. -/
  | unary (operator : Token) (right : Expr)
  /-- An operator between its operands. -/
  | binary (left : Expr) (operator : Token) (right : Expr)
  /-- A function applied to arguments. -/
  | call (callee : Token) (arguments : List Expr)
  /-- A random number between two bounds. -/
  | range (low high : Expr) (mode : RangeMode)
  /-- A chain of conditions, each with the connective before it. -/
  | logic (first : Expr) (rest : List (Token × Expr))

instance : Inhabited Expr := ⟨.literal .undefined⟩

end Linework
