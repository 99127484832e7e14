import Linework.Engine

/-!
# Sessions

An engine used step by step: contexts are made and changed directly, and expressions, calls and
blocks work in any of them. The step count, the current line and the diagnostics go on from step to
step; only a run of a whole script starts afresh.
-/

namespace Linework.Engine

/-- Reads a script, with the log of the reading. -/
def parse (e : Engine) (text : List Char) : Except LayoutError Script × Engine :=
  (Script.parse text, e.addLog (Script.parseEvents text))

/-- The contexts made so far. -/
def contexts (e : Engine) : Forest := e.machine.scope.contexts

/-- Changes the contexts. -/
def withContexts (e : Engine) (contexts : Forest) : Engine :=
  { e with machine := { e.machine with scope.contexts := contexts } }

/-- Makes a root context with the globals and the functions of the host. -/
def makeRoot (e : Engine) : Engine := e.withContexts (e.contexts.make e.rootFrame none)

/-- Makes a context without anything in it. -/
def makeBare (e : Engine) : Engine := e.withContexts (e.contexts.make Frame.empty none)

/-- Makes a child of a context, with some variables in it. -/
def makeChild (e : Engine) (parent : Nat) (values : Bindings) : Engine :=
  let frame := values.foldl (fun f (name, value) => f.declare name value) Frame.empty
  e.withContexts (e.contexts.make frame (some parent))

/-- Binds a name in a context. -/
def declare (e : Engine) (c : Nat) (name : String) (value : Value) : Engine :=
  e.withContexts (e.contexts.declare c name value)

/-- Changes a variable that a context sees, if it is declared. -/
def set? (e : Engine) (c : Nat) (name : String) (value : Value) : Option Engine :=
  match e.contexts.set c name value with
  | (true, contexts) => some (e.withContexts contexts)
  | (false, _) => none

/-- Does an action in a context, outside of all functions. -/
def performIn {α : Type} (e : Engine) (c : Nat) (action : Run α) :
    Option (Except Interrupt α × Engine) :=
  { e with machine := e.machine.behind none c }.perform action

/-- Evaluates the text of an expression in a context. -/
def evaluate (e : Engine) (fuel c : Nat) (text : List Char) :
    Option (Except Interrupt Value × Engine) :=
  e.performIn c (Linework.evaluate e.limits fuel text)

/-- Evaluates the tree of an expression in a context. -/
def evaluateExpr (e : Engine) (fuel c : Nat) (expr : Expr) :
    Option (Except Interrupt Value × Engine) :=
  e.performIn c (expr.eval (callByName e.limits fuel))

/-- Calls a function by its name as a context sees it. -/
def call (e : Engine) (fuel c : Nat) (name : String) (arguments : List Value) :
    Option (Except Interrupt Value × Engine) :=
  e.performIn c (callByName e.limits fuel name arguments)

/-- Executes a block in a context. -/
def execute (e : Engine) (fuel c : Nat) (block : Block) :
    Option (Except Interrupt Unit × Engine) :=
  e.performIn c (Linework.execute e.limits fuel block)

/-- Reads a script and adds its functions to a context. -/
def define (e : Engine) (c : Nat) (text : List Char) : Except LayoutError Script × Engine :=
  let (script, e) := e.parse text
  match script with
  | .error error => (.error error, e)
  | .ok script =>
    let functions := script.functions.map Definition.toFunction
    (.ok script, e.withContexts (functions.foldl (fun f g => f.register c g) e.contexts))

end Linework.Engine
