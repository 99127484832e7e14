/-!
# Errors in expressions

Why an expression cannot be read, and at which column.
-/

namespace Linework

/-- The reason why an expression cannot be read. -/
inductive SyntaxError.Cause where
  /-- A string without its closing quote. -/
  | unterminatedString
  /-- An operand with blanks inside. -/
  | unexpectedOperand (text : String)
  /-- An operand that begins like a number and is none. -/
  | invalidNumber (text : String)
  /-- A token left over after a complete expression. -/
  | trailing (lexeme : String)
  /-- The end of the text where an expression should begin. -/
  | expectExpression
  /-- A token that cannot begin an expression. -/
  | unexpected (lexeme : String)
  /-- A group that is not closed. -/
  | unclosedGroup
  /-- A list of arguments that is not closed. -/
  | unclosedArguments
  /-- A range whose start is not followed by a colon. -/
  | missingColon
  /-- A range whose second colon is not followed by a word. -/
  | missingMode
  /-- A range mode that does not exist. -/
  | unknownMode (flag : String)
  /-- A range that is not closed. -/
  | unclosedRange
  /-- Too many levels of nesting. -/
  | tooDeep
  deriving DecidableEq, Repr

/-- An expression that cannot be read: the column of the offending character or token, and why. -/
structure SyntaxError where
  column : Nat
  cause : SyntaxError.Cause
  deriving DecidableEq, Repr

namespace SyntaxError

/-- The wording of a cause. -/
def Cause.message : Cause → String
  | unterminatedString => "Unterminated string"
  | unexpectedOperand text => "Unexpected operand '" ++ text ++ "'"
  | invalidNumber text => "Invalid number '" ++ text ++ "'"
  | trailing lexeme => "Unexpected '" ++ lexeme ++ "' after expression"
  | expectExpression => "Expect expression"
  | unexpected lexeme => "Unexpected '" ++ lexeme ++ "'"
  | unclosedGroup => "Expect ')' after expression"
  | unclosedArguments => "Expect ')' after arguments"
  | missingColon => "Expect ':' after range start"
  | missingMode => "Expect 'i' or 'd' after ':'"
  | unknownMode flag => "Unknown range mode '" ++ flag ++ "', expect 'i' or 'd'"
  | unclosedRange => "Expect ']' after range"
  | tooDeep => "Expression nested too deeply"

/-- The wording of an error, with its column. -/
def message (e : SyntaxError) : String :=
  e.cause.message ++ " at column " ++ toString e.column

end SyntaxError

end Linework
