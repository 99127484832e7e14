import Linework.Token
import Linework.SyntaxError

/-!
# Scanning

`Token.scan` splits the text of one expression into tokens. Blanks separate tokens and belong to
none. An operator is the longest one that fits; a lone `=`, `&` or `|` is no operator. Everything
else up to the next operator is one operand, which must not have blanks inside.
-/

namespace Linework.Token

open Text

/-- What begins at a given place of the text. -/
inductive Lexeme where
  /-- A blank, which belongs to no token. -/
  | blank
  /-- A token of so many characters. -/
  | token (kind : TokenKind) (length : Nat) (literal : Option Value)
  /-- Nothing that can be read. -/
  | fault (cause : SyntaxError.Cause)

/-- The operators of one character that never grow. -/
def single? : Char → Option TokenKind
  | '(' => some .leftParen
  | ')' => some .rightParen
  | '[' => some .leftBracket
  | ']' => some .rightBracket
  | ':' => some .colon
  | ',' => some .comma
  | '-' => some .minus
  | '+' => some .plus
  | '*' => some .star
  | '/' => some .slash
  | '^' => some .caret
  | _ => none

/-- The operator that begins a text, with its length. -/
def operator? : List Char → Option (TokenKind × Nat)
  | '!' :: '=' :: _ => some (.bangEqual, 2)
  | '!' :: _ => some (.bang, 1)
  | '<' :: '=' :: _ => some (.lessEqual, 2)
  | '<' :: _ => some (.less, 1)
  | '>' :: '=' :: _ => some (.greaterEqual, 2)
  | '>' :: _ => some (.greater, 1)
  | '=' :: '=' :: _ => some (.equalEqual, 2)
  | '&' :: '&' :: _ => some (.andAnd, 2)
  | '|' :: '|' :: _ => some (.orOr, 2)
  | c :: _ => (single? c).map (·, 1)
  | [] => none

/-- Whether an operand ends before this text: at an operator or a quote. -/
def endsOperand (cs : List Char) : Bool :=
  (operator? cs).isSome || cs.head? = some '"'

/-- The characters up to the next operator or quote. -/
def operandRun : List Char → List Char
  | [] => []
  | c :: cs => if endsOperand (c :: cs) then [] else c :: operandRun cs

/-- The content of a string whose opening quote has been read, and the number of characters up to
and with the closing quote. A backslash before a quote makes it part of the string; any other
backslash stands for itself. -/
def readString? : List Char → Option (List Char × Nat)
  | [] => none
  | '"' :: _ => some ([], 1)
  | '\\' :: '"' :: cs => (readString? cs).map fun (text, n) => ('"' :: text, n + 2)
  | c :: cs => (readString? cs).map fun (text, n) => (c :: text, n + 1)

/-- Whether an operand that begins like this has to be a number. -/
def beginsNumber (c : Char) : Bool := c.isDigit || c = '.'

/-- The operand with these characters. -/
def operand (text : List Char) : Lexeme :=
  if text.any isBlank then .fault (.unexpectedOperand (String.ofList text))
  else if text.head?.any beginsNumber then
    match Decimal.read? text with
    | some x => .token .number text.length (some (.number x))
    | none => .fault (.invalidNumber (String.ofList text))
  else .token .identifier text.length none

/-- Reads what begins with the character `c`, followed by `cs`. -/
def readLexeme (c : Char) (cs : List Char) : Lexeme :=
  match operator? (c :: cs) with
  | some (kind, length) => .token kind length none
  | none =>
    if c = '"' then
      match readString? cs with
      | some (text, n) => .token .stringLiteral (n + 1) (some (.text (String.ofList text)))
      | none => .fault .unterminatedString
    else if isBlank c then .blank
    else operand (trimEnd (c :: operandRun cs))

/-- Scans a text whose first character has the given column, after passing over the first `skip`
characters, which belong to the token before. -/
def scanFrom (column skip : Nat) : List Char → Except SyntaxError (List Token)
  | [] => .ok [⟨.endOfText, "", none, column⟩]
  | c :: cs =>
    match skip with
    | skip + 1 => scanFrom (column + 1) skip cs
    | 0 =>
      match readLexeme c cs with
      | .blank => scanFrom (column + 1) 0 cs
      | .fault cause => .error ⟨column, cause⟩
      | .token kind length literal => do
        let rest ← scanFrom (column + 1) (length - 1) cs
        return ⟨kind, String.ofList ((c :: cs).take length), literal, column⟩ :: rest

/-- Splits an expression into tokens, the last of which marks the end of the text. -/
def scan (text : List Char) : Except SyntaxError (List Token) := scanFrom 1 0 text

end Linework.Token
