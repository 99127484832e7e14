import Linework.Value
import Linework.Text.Quoted

/-!
# Tokens

The smallest parts of an expression, each with the characters it was read from and the column
where they begin, counted in characters from one.
-/

namespace Linework

/-- What a token is. -/
inductive TokenKind where
  | leftParen
  | rightParen
  | leftBracket
  | rightBracket
  | colon
  | comma
  | minus
  | plus
  | slash
  | star
  | caret
  | bang
  | bangEqual
  | equalEqual
  | greater
  | greaterEqual
  | less
  | lessEqual
  | andAnd
  | orOr
  | identifier
  | stringLiteral
  | number
  | endOfText
  deriving DecidableEq, Repr

/-- A token: its kind, its characters, the value it writes (for numbers and strings) and the
column of its first character. -/
structure Token where
  kind : TokenKind
  lexeme : String
  literal : Option Value
  column : Nat

namespace TokenKind

/-- All kinds of tokens. -/
def all : List TokenKind :=
  [leftParen, rightParen, leftBracket, rightBracket, colon, comma, minus, plus, slash, star, caret,
   bang, bangEqual, equalEqual, greater, greaterEqual, less, lessEqual, andAnd, orOr, identifier,
   stringLiteral, number, endOfText]

/-- The name of a kind. -/
def label : TokenKind → String
  | leftParen => "LeftParen"
  | rightParen => "RightParen"
  | leftBracket => "LeftBracket"
  | rightBracket => "RightBracket"
  | colon => "Colon"
  | comma => "Comma"
  | minus => "Minus"
  | plus => "Plus"
  | slash => "Slash"
  | star => "Star"
  | caret => "Caret"
  | bang => "Bang"
  | bangEqual => "BangEqual"
  | equalEqual => "EqualEqual"
  | greater => "Greater"
  | greaterEqual => "GreaterEqual"
  | less => "Less"
  | lessEqual => "LessEqual"
  | andAnd => "AndAnd"
  | orOr => "OrOr"
  | identifier => "Identifier"
  | stringLiteral => "StringLiteral"
  | number => "Number"
  | endOfText => "EOF"

/-- The kind of a given name. -/
def ofLabel? (name : String) : Option TokenKind := all.find? (·.label = name)

/-- Every name finds its kind again. -/
theorem ofLabel?_label (k : TokenKind) : ofLabel? k.label = some k := by
  cases k <;> decide

end TokenKind

/-- Numbers in descriptions: a point is kept, and large or small ones get an exponent. -/
def describeStyle : Decimal.Style where
  positional := fun point => -3 ≤ point && point ≤ 16
  keepsPoint := true
  infinityWord := "inf"

/-- A value written with its kind. -/
def Value.describe : Value → String
  | .undefined => "Undefined"
  | .null => "Null"
  | .bool b => "Boolean(" ++ (if b then "true" else "false") ++ ")"
  | .number x => "Number(" ++ describeStyle.write x ++ ")"
  | .text s => "String(" ++ Text.quoted s ++ ")"
  | .object o => "Opaque(" ++ o.text ++ ")"

/-- A token written with its kind, its characters and its value. -/
def Token.describe (t : Token) : String :=
  let literal := match t.literal with
    | some v => "Some(" ++ v.describe ++ ")"
    | none => "None"
  t.kind.label ++ " " ++ t.lexeme ++ " " ++ literal

end Linework
