import Linework.Interrupt
import Linework.Text.Quoted

/-!
# Functions

A function is defined in a script or provided by the host. The work of a host function is a tree
of requests to the machine that runs the script; what a request answers decides how the work goes
on. Contexts are named by their numbers. A request that is interrupted answers with the interrupt,
which the host may turn into any value.
-/

namespace Linework

/-- What can be told about a function without calling it. -/
structure Signature where
  name : String
  params : List String
  /-- Whether the host provides the function. -/
  isHost : Bool
  deriving DecidableEq, Repr

/-- What a host function may ask of the machine besides evaluating and calling. -/
inductive HostRequest where
  /-- Writes a line of output. -/
  | print (line : String)
  /-- Asks for the time. -/
  | clock
  /-- Looks up a variable in a context. -/
  | get (context : Nat) (name : String)
  /-- Declares a variable in a context. -/
  | declare (context : Nat) (name : String) (value : Value)
  /-- Changes a variable that a context sees. -/
  | set (context : Nat) (name : String) (value : Value)
  /-- Makes a context without anything in it. -/
  | make (parent : Option Nat)
  /-- Asks for the topmost ancestor of a context. -/
  | rootOf (context : Nat)
  /-- Looks up a function in a context. -/
  | find (context : Nat) (name : String)
  /-- Registers in one context the function that a name has in another. -/
  | adopt (source : Nat) (name : String) (target : Nat)
  /-- Registers a script function in a context. -/
  | define (context : Nat) (definition : Definition)
  /-- Takes an identity that nothing has yet. -/
  | identify
  /-- Looks up what the host has kept under a key. -/
  | remembered (key : String)
  /-- Keeps something under a key, for this and all later calls. -/
  | remember (key : String) (value : Value)

/-- The answers that a request can have. The time is told in milliseconds since the epoch, if it
lies after the epoch. -/
def HostRequest.Reply : HostRequest → Type
  | print _ | declare _ _ _ | adopt _ _ _ | define _ _ | remember _ _ => Unit
  | clock => Option Nat
  | get _ _ | remembered _ => Option Value
  | set _ _ _ => Bool
  | make _ | rootOf _ | identify => Nat
  | find _ _ => Option Signature

/-- The work of a host function. -/
inductive HostProgram where
  /-- Hands back a value. -/
  | done (value : Value)
  /-- Never hands back anything. -/
  | hang
  /-- Asks for something and goes on with the answer. -/
  | ask (request : HostRequest) (next : request.Reply → HostProgram)
  /-- Evaluates the text of an expression in a context. -/
  | evaluate (context : Nat) (source : String) (next : Except Interrupt Value → HostProgram)
  /-- Calls the function that a name has in a context. -/
  | call (context : Nat) (name : String) (arguments : List Value)
      (next : Except Interrupt Value → HostProgram)
  /-- Registers another host function in a context. -/
  | offer (context : Nat) (name : String) (params : List String)
      (program : Nat → List Value → HostProgram) (next : HostProgram)

/-- What happens when a function is called. A host function is told the root of the context it is
called from and its arguments. -/
inductive Function.Body where
  | script (block : Block)
  | host (program : Nat → List Value → HostProgram)

/-- A function with its name and parameters. The parameters of a host function are for information
only. -/
structure Function where
  name : String
  params : List String
  body : Function.Body

/-- A definition as a function. -/
def Definition.toFunction (d : Definition) : Function := ⟨d.name, d.params, .script d.body⟩

namespace Function

/-- Whether the host provides the function. -/
def isHost (f : Function) : Bool :=
  match f.body with
  | .host _ => true
  | .script _ => false

/-- What can be told about a function. -/
def signature (f : Function) : Signature := ⟨f.name, f.params, f.isHost⟩

/-- The short text of a function. -/
def text (f : Function) : String :=
  (if f.isHost then "<native fn " else "<fn ") ++ f.name ++ ">"

/-- The long text of a function, with its parameters. -/
def describe (f : Function) : String :=
  "Function \x7b name: " ++ Text.quoted f.name
    ++ ", params: [" ++ ", ".intercalate (f.params.map Text.quoted)
    ++ "], native: " ++ (if f.isHost then "true" else "false") ++ " \x7d"

end Function

/-- Parameters that end in three dots stand for any number of arguments and bind none. -/
def isRest (param : String) : Bool := "...".toList.isSuffixOf param.toList

end Linework
