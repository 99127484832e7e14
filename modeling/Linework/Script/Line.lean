import Linework.Script
import Linework.Text.Letter
import Linework.Text.Blank

/-!
# Lines of a script

What a single line of a script says, without regard to the lines around it. A line is a word that
ends or turns a block, the head of a block, or a statement of its own.
-/

namespace Linework

/-- Why the lines of a script do not form blocks. -/
inductive LayoutError.Cause where
  /-- `end` or `else` without an open block. -/
  | unmatchedBlock
  /-- `else` in a block that cannot have one. -/
  | danglingElse
  /-- The head of a function without a name or parentheses. -/
  | malformedFunction (head : String)
  /-- The head of a branch or loop without a condition in parentheses. -/
  | malformedCondition (head : String)
  /-- A declaration without a name. -/
  | malformedDeclaration (text : String)
  deriving DecidableEq, Repr

/-- A script that has no blocks: the offending line and why. -/
structure LayoutError where
  line : Nat
  cause : LayoutError.Cause
  deriving DecidableEq, Repr

/-- The wording of a cause. -/
def LayoutError.Cause.message : LayoutError.Cause → String
  | unmatchedBlock => "No open block to close"
  | danglingElse => "'else' without a matching 'if'"
  | malformedFunction head => "Malformed function header '" ++ head ++ "'"
  | malformedCondition head => "Expect '(<condition>)' in '" ++ head ++ "'"
  | malformedDeclaration text => "Expect variable name in '" ++ text ++ "'"

/-- The wording of an error, with its line. -/
def LayoutError.message (e : LayoutError) : String :=
  s!"[line {e.line}] Error: " ++ e.cause.message

/-- What a line says. -/
inductive Line where
  /-- Ends the innermost block. -/
  | finish
  /-- Turns to the other block of a branch. -/
  | otherwise
  /-- Begins a function. -/
  | function (name : String) (params : List String)
  /-- Begins a branch. -/
  | branch (condition : Formula)
  /-- Begins a loop. -/
  | loop (condition : Formula)
  /-- A statement of one line. -/
  | plain (instruction : Instruction)

namespace Line

open Text

/-- A character of a name. -/
def isNameChar (c : Char) : Bool := isAlphanumeric c || c = '_'

/-- A name: a letter or underscore, then letters, numbers and underscores. -/
def isName : List Char → Bool
  | [] => false
  | c :: cs => (isAlphabetic c || c = '_') && cs.all isNameChar

/-- What follows a keyword at the beginning of a text, without leading blanks. The keyword has to
be followed by the end, a blank or a parenthesis. -/
def afterKeyword? (keyword : String) (text : List Char) : Option (List Char) :=
  if keyword.toList.isPrefixOf text then
    match text.drop keyword.length with
    | [] => some []
    | c :: cs => if isBlank c || c = '(' then some (trimStart (c :: cs)) else none
  else none

/-- The pieces of a text between separators. There is always at least one. -/
def pieces (separator : Char) : List Char → List (List Char)
  | [] => [[]]
  | c :: cs =>
    if c = separator then [] :: pieces separator cs
    else
      match pieces separator cs with
      | [] => [[c]]
      | piece :: rest => (c :: piece) :: rest

/-- The text before the first separator and the text after it. -/
def cut? (separator : Char) (text : List Char) : Option (List Char × List Char) :=
  match text.dropWhile (· ≠ separator) with
  | [] => none
  | _ :: after => some (text.takeWhile (· ≠ separator), after)

/-- The parameters between the parentheses of a head; empty ones do not count. -/
def readParams (text : List Char) : List String :=
  (((pieces ',' text).map trim).filter (· ≠ [])).map String.ofList

/-- The name and the parameters in the head of a function. -/
def readHead? (head : List Char) : Option (String × List String) :=
  match cut? '(' head with
  | none => none
  | some (before, after) =>
    let name := trim before
    if head.getLast? = some ')' ∧ isName name then
      some (String.ofList name, readParams after.dropLast)
    else none

/-- The condition of a branch or loop, which is all that follows the keyword. -/
def readCondition? (rest : List Char) : Option Formula :=
  if rest.head? = some '(' ∧ rest.getLast? = some ')' then some (Formula.compile rest) else none

/-- The name and the value of a declaration, after its keyword. -/
def readDeclaration? (rest : List Char) : Option (String × Option Formula) :=
  let (name, value) := match cut? '=' rest with
    | some (before, after) => (trim before, some (Formula.compile after))
    | none => (rest, none)
  if isName name then some (String.ofList name, value) else none

/-- The operator that begins a text, and the text after it. -/
def assignOp? : List Char → Option (AssignOp × List Char)
  | '=' :: value => some (.assign, value)
  | c :: '=' :: value => (AssignOp.ofChar? c).map (·, value)
  | _ => none

/-- Target, operator and right side of an assignment. A second `=` makes it a comparison. -/
def splitAssignment? (text : List Char) : Option (List Char × AssignOp × List Char) :=
  let name := text.takeWhile isNameChar
  if isName name then
    match assignOp? (trimStart (text.dropWhile isNameChar)) with
    | some (op, value) =>
      if (trimStart value).head? = some '=' then none else some (name, op, value)
    | none => none
  else none

/-- A statement of one line. -/
def readInstruction (text : List Char) : Except LayoutError.Cause Instruction :=
  if text = "break".toList then .ok (.exit .leave)
  else if text = "continue".toList then .ok (.exit .again)
  else
    match afterKeyword? "return" text with
    | some [] => .ok (.yield none)
    | some rest => .ok (.yield (some (Formula.compile rest)))
    | none =>
      match afterKeyword? "let" text with
      | some rest =>
        match readDeclaration? rest with
        | some (name, value) => .ok (.declare name value)
        | none => .error (.malformedDeclaration (String.ofList text))
      | none =>
        match splitAssignment? text with
        | some (name, op, value) =>
          .ok (.assign (String.ofList name) op (Formula.compile value))
        | none => .ok (.compute (Formula.compile text))

/-- What a line says. The text has no blanks around it, is not empty and is no comment. -/
def read (text : List Char) : Except LayoutError.Cause Line :=
  if text = "end".toList then .ok .finish
  else if text = "else".toList then .ok .otherwise
  else
    match afterKeyword? "function" text with
    | some head =>
      match readHead? head with
      | some (name, params) => .ok (.function name params)
      | none => .error (.malformedFunction (String.ofList text))
    | none =>
      match afterKeyword? "if" text with
      | some rest =>
        match readCondition? rest with
        | some condition => .ok (.branch condition)
        | none => .error (.malformedCondition (String.ofList text))
      | none =>
        match afterKeyword? "while" text with
        | some rest =>
          match readCondition? rest with
          | some condition => .ok (.loop condition)
          | none => .error (.malformedCondition (String.ofList text))
        | none => (readInstruction text).map .plain

end Line

end Linework
