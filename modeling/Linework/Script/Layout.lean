import Linework.Script.Line
import Linework.Diagnostic
import Linework.Event

/-!
# Block layout

`Script.parse` turns the lines of a script into nested blocks. The blocks begun and not yet ended
stand on a stack, innermost first; the end of a block hands it to the construct that encloses it.
A function leaves the blocks around it and joins the list of functions when it ends. The end of
the script ends all blocks, with a warning for each.
-/

namespace Linework

/-- A parsed script. -/
structure Script where
  block : Block
  /-- The functions, in the order in which they end. -/
  functions : List Definition
  /-- A warning for each block that is not ended, innermost first. -/
  warnings : List Diagnostic

/-- The head of a block that has been begun and not ended. -/
inductive OpenBlock.Head where
  | function (name : String) (params : List String)
  | branch (condition : Formula)
  /-- The other block of a branch whose first block is complete. -/
  | otherwise (condition : Formula) (yes : Block)
  | loop (condition : Formula)

/-- A block that has been begun on a line and not ended. Its statements stand latest first. -/
structure OpenBlock where
  line : Nat
  head : OpenBlock.Head
  body : List Statement

/-- The blocks while lines are still read. Statements and functions stand latest first, open blocks
innermost first. -/
structure Layout where
  root : List Statement
  stack : List OpenBlock
  functions : List Definition

namespace Layout

/-- Nothing read yet. -/
def empty : Layout := ⟨[], [], []⟩

/-- Adds a statement to the innermost open block. -/
def push (l : Layout) (s : Statement) : Layout :=
  match l.stack with
  | [] => { l with root := s :: l.root }
  | top :: rest => { l with stack := { top with body := s :: top.body } :: rest }

/-- Begins a block. -/
def start (l : Layout) (line : Nat) (head : OpenBlock.Head) : Layout :=
  { l with stack := ⟨line, head, []⟩ :: l.stack }

/-- Hands a finished block, which is no longer on the stack, to the construct that owns it. -/
def close (l : Layout) (b : OpenBlock) : Layout :=
  let body := b.body.reverse
  match b.head with
  | .function name params => { l with functions := ⟨name, params, body⟩ :: l.functions }
  | .branch condition => l.push (.branch b.line condition body none)
  | .otherwise condition yes => l.push (.branch b.line condition yes (some body))
  | .loop condition => l.push (.loop b.line condition body)

/-- Ends the innermost block. -/
def finish (l : Layout) : Except LayoutError.Cause Layout :=
  match l.stack with
  | [] => .error .unmatchedBlock
  | top :: rest => .ok ({ l with stack := rest }.close top)

/-- Turns the innermost block, which has to be the first one of a branch, to the other one. -/
def turn (l : Layout) : Except LayoutError.Cause Layout :=
  match l.stack with
  | [] => .error .unmatchedBlock
  | ⟨line, .branch condition, body⟩ :: rest =>
    .ok { l with stack := ⟨line, .otherwise condition body.reverse, []⟩ :: rest }
  | _ => .error .danglingElse

/-- Takes in what a line says. -/
def add (l : Layout) (line : Nat) : Line → Except LayoutError.Cause Layout
  | .finish => l.finish
  | .otherwise => l.turn
  | .function name params => .ok (l.start line (.function name params))
  | .branch condition => .ok (l.start line (.branch condition))
  | .loop condition => .ok (l.start line (.loop condition))
  | .plain instruction => .ok (l.push (.plain line instruction))

/-- Blank lines and comments say nothing. -/
def isSilent (text : List Char) : Bool := text.isEmpty || "//".toList.isPrefixOf text

/-- Takes in one line of text. -/
def addText (l : Layout) (line : Nat) (text : List Char) : Except LayoutError Layout :=
  let text := Text.trim text
  if isSilent text then .ok l
  else
    match Line.read text with
    | .error cause => .error ⟨line, cause⟩
    | .ok said =>
      match l.add line said with
      | .error cause => .error ⟨line, cause⟩
      | .ok l => .ok l

/-- Takes in lines of text, the first of which has the given number. -/
def addLines (l : Layout) (line : Nat) : List (List Char) → Except LayoutError Layout
  | [] => .ok l
  | text :: rest => do
    let l ← l.addText line text
    l.addLines (line + 1) rest

/-- Ends the innermost `n` blocks, as far as there are any. -/
def finishMany : (n : Nat) → Layout → Layout
  | 0, l => l
  | n + 1, l =>
    match l.finish with
    | .ok l => finishMany n l
    | .error _ => l

/-- A warning for each block that is still open, innermost first. -/
def warnings (l : Layout) : List Diagnostic :=
  l.stack.map fun b => ⟨b.line, .unclosedBlock⟩

/-- The script whose lines have all been read. Blocks left open end here, with a warning. -/
def toScript (l : Layout) : Script :=
  let done := l.finishMany l.stack.length
  { block := done.root.reverse, functions := done.functions.reverse, warnings := l.warnings }

/-- What the log says about a line that is taken in. -/
def eventOf (l : Layout) (line : Nat) (text : List Char) : List Event :=
  match Line.read (Text.trim text), l.stack with
  | .ok .finish, top :: _ => [.blockEnds line top.line]
  | .ok (.function name params), _ => [.functionBegins line name params]
  | _, _ => []

/-- What the log says about lines, up to the first one that cannot be taken in. -/
def trace (l : Layout) (line : Nat) : List (List Char) → List Event
  | [] => []
  | text :: rest =>
    match l.addText line text with
    | .error _ => []
    | .ok next => l.eventOf line text ++ next.trace (line + 1) rest

end Layout

namespace Script

/-- The lines of a script. A carriage return before the end of a line counts as a blank. -/
def lines (text : List Char) : List (List Char) := Line.pieces '\n' text

/-- Reads a script. -/
def parse (text : List Char) : Except LayoutError Script := do
  let l ← Layout.empty.addLines 1 (lines text)
  return l.toScript

/-- What the log says while a script is read. -/
def parseEvents (text : List Char) : List Event := Layout.empty.trace 1 (lines text)

end Script

end Linework
