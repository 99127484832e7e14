import Linework.Function

/-!
# A toolkit of host functions

Functions that a host may offer to scripts: canvases, access to the globals, a counter, and ways
back into the machine.
-/

namespace Linework.Host

/-- The text of an argument; anything but a text counts as empty. -/
def textArgument (arguments : List Value) : String :=
  match arguments with
  | .text s :: _ => s
  | _ => ""

/-- The number of the argument at a place; a missing one counts as zero. -/
def numberArgument (arguments : List Value) (i : Nat) : Float :=
  match arguments[i]? with
  | some v => v.toNumber
  | none => 0

/-- The answer to a request as a value: an interrupt becomes its wording. -/
def answer : Except Interrupt Value → HostProgram
  | .ok v => .done v
  | .error i => .done (.text i.message)

/-- A canvas of a width and a height, as an object. -/
def canvasObject (id : Nat) (width height : Float) : HostObject :=
  ⟨id, "<canvas " ++ displayNumber width ++ "x" ++ displayNumber height ++ ">"⟩

/-- The key under which the width of an object is kept. -/
def widthKey (id : Nat) : String := s!"width {id}"

/-- The key under which the height of an object is kept. -/
def heightKey (id : Nat) : String := s!"height {id}"

/-- Keeps the size of a canvas and hands it back. -/
def makeCanvas (id : Nat) (width height : Float) : HostProgram :=
  .ask (.remember (widthKey id) (.number width)) fun _ =>
  .ask (.remember (heightKey id) (.number height)) fun _ =>
  .done (.object (canvasObject id width height))

/-- The product of two numbers that may be missing. -/
def productOf : Option Value → Option Value → Value
  | some (.number x), some (.number y) => .number (x * y)
  | _, _ => .undefined

/-- `width` times `height` of a canvas. -/
def areaOf : List Value → HostProgram
  | .object o :: _ =>
    .ask (.remembered (widthKey o.id)) fun width =>
    .ask (.remembered (heightKey o.id)) fun height => .done (productOf width height)
  | _ => .done .undefined

/-- The number after the one that is kept, from one on. -/
def successorOf : Option Value → Value
  | some (.number x) => .number (x + 1)
  | _ => .number 1

/-- Counts up what is kept under a key. -/
def countUp (key : String) : HostProgram :=
  .ask (.remembered key) fun old =>
  .ask (.remember key (successorOf old)) fun _ => .done (successorOf old)

/-- The functions of the toolkit. -/
inductive Tool where
  /-- Makes a canvas of a width and a height. -/
  | canvas
  /-- The area of a canvas. -/
  | area
  /-- The value of a global variable. -/
  | global
  /-- Declares a global variable. -/
  | setGlobal
  /-- Counts its own calls. -/
  | touch
  /-- Calls a function by its name. -/
  | invoke
  /-- Evaluates the text of an expression. -/
  | eval
  /-- The number of its arguments. -/
  | count
  deriving DecidableEq, Repr

namespace Tool

/-- The tools, in the order in which they are registered. -/
def all : List Tool := [canvas, area, global, setGlobal, touch, invoke, eval, count]

/-- The name of a tool. -/
def name : Tool → String
  | canvas => "canvas"
  | area => "area"
  | global => "global"
  | setGlobal => "setglobal"
  | touch => "touch"
  | invoke => "invoke"
  | eval => "eval"
  | count => "count"

/-- The tool of a name. -/
def ofName? (s : String) : Option Tool := all.find? (·.name = s)

/-- The parameters of a tool. -/
def params : Tool → List String
  | canvas => ["w", "h"]
  | area => ["canvas"]
  | global => ["name"]
  | setGlobal => ["name", "value"]
  | touch => []
  | invoke => ["name", "..."]
  | eval => ["source"]
  | count => ["..."]

/-- The work of a tool, from the root of the context it is called from. What `touch` has counted is
kept under the number of the tool. -/
def program (number : Nat) (tool : Tool) (root : Nat) (arguments : List Value) : HostProgram :=
  match tool with
  | canvas => .ask .identify fun (id : Nat) =>
      makeCanvas id (numberArgument arguments 0) (numberArgument arguments 1)
  | area => areaOf arguments
  | global => .ask (.get root (textArgument arguments)) fun (v : Option Value) =>
      .done (v.getD .undefined)
  | setGlobal =>
    .ask (.declare root (textArgument arguments) (arguments[1]?.getD .undefined)) fun _ =>
      .done .null
  | touch => countUp s!"touches {number}"
  | invoke => .call root (textArgument arguments) (arguments.drop 1) answer
  | eval => .evaluate root (textArgument arguments) answer
  | count => .done (.number arguments.length.toFloat)

/-- A tool as a function under a given name, with a number of its own. -/
def toFunction (tool : Tool) (name : String) (number : Nat) : Function :=
  ⟨name, tool.params, .host (tool.program number)⟩

end Tool

end Linework.Host
