import Linework.Expr

/-!
# Printed form of an expression

Operators stand before their operands and every compound is enclosed: `(+ 2 (* 3 4))`.
-/

namespace Linework

/-- What follows the bounds of a range. -/
def RangeMode.suffix : RangeMode → String
  | .auto => ""
  | .integer => ":i"
  | .real => ":d"

/-- The printed form of a literal: a text stands between quotes, as it is. -/
def Value.printLiteral : Value → String
  | .text s => "\"" ++ s ++ "\""
  | v => v.display

namespace Expr

mutual

/-- The printed form of an expression. -/
def print : Expr → String
  | .literal v => v.printLiteral
  | .ref name => name.lexeme
  | .group inner => "(group " ++ inner.print ++ ")"
  | .unary op right => "(" ++ op.lexeme ++ " " ++ right.print ++ ")"
  | .binary left op right => "(" ++ op.lexeme ++ " " ++ left.print ++ " " ++ right.print ++ ")"
  | .call callee arguments => "(call " ++ callee.lexeme ++ printArguments arguments ++ ")"
  | .range low high mode => "[" ++ low.print ++ ":" ++ high.print ++ mode.suffix ++ "]"
  | .logic first rest => "(logic " ++ first.print ++ printRest rest ++ ")"
termination_by structural e => e

/-- Arguments, each after a blank. -/
def printArguments : List Expr → String
  | [] => ""
  | e :: es => " " ++ e.print ++ printArguments es
termination_by structural es => es

/-- Connectives and conditions, each after a blank. -/
def printRest : List (Token × Expr) → String
  | [] => ""
  | (connective, e) :: rest => " " ++ connective.lexeme ++ " " ++ e.print ++ printRest rest
termination_by structural es => es

end

end Expr

end Linework
