import Linework.Token.Scan
import Linework.Expr.Parse

/-!
# Formulas

An expression as a script holds it: the text and, once for all, its tree or the reason why it has
none. A script with a faulty formula still runs; the fault is reported whenever it is evaluated.
-/

namespace Linework

/-- The text of an expression without the blanks around it, and what it was read as. -/
structure Formula where
  source : String
  compiled : Except SyntaxError Expr

/-- Reads the text of an expression. Columns count the blanks before it. -/
def Formula.compile (text : List Char) : Formula where
  source := String.ofList (Text.trim text)
  compiled := do
    let tokens ← Token.scan text
    Expr.parse tokens

end Linework
