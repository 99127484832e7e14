import Linework.Scope.Frame

/-!
# Forests of contexts

Contexts that share ancestors. A context is a frame with a parent made before it, or none; contexts
are numbered in the order in which they are made. What a context sees is its chain: itself, its
parent and so on up to a root.
-/

namespace Linework

/-- A frame, the number of its parent and that of its topmost ancestor. A root has neither. -/
structure Context where
  frame : Frame
  parent : Option Nat
  root : Option Nat

/-- Contexts, the latest first. The number of a context is the number of contexts after it in the
list. -/
abbrev Forest := List Context

namespace Forest

/-- The context of a number. -/
def context? : Forest → Nat → Option Context
  | [], _ => none
  | ctx :: older, c => if c = older.length then some ctx else context? older c

/-- A context and its ancestors, up to the root. -/
def chain : Forest → Nat → List Nat
  | [], _ => []
  | ctx :: older, c =>
    if c = older.length then
      c :: match ctx.parent with
        | some p => chain older p
        | none => []
    else chain older c

/-- Changes the frame of a context. -/
def update (c : Nat) (g : Frame → Frame) : Forest → Forest
  | [] => []
  | ctx :: older =>
    if c = older.length then { ctx with frame := g ctx.frame } :: older
    else ctx :: update c g older

/-- The last context of a chain. -/
def top (f : Forest) (c : Nat) : Nat := (f.chain c).getLast?.getD c

/-- Makes a context; its number is the number of contexts so far. Its topmost ancestor is looked for
once and for all. -/
def make (f : Forest) (frame : Frame) (parent : Option Nat) : Forest :=
  ⟨frame, parent, parent.map f.top⟩ :: f

/-- Whether a context has no parent. -/
def isRoot (f : Forest) (c : Nat) : Bool := ((f.context? c).bind (·.parent)).isNone

/-- The topmost ancestor of a context, which is itself if it has no parent. -/
def rootOf (f : Forest) (c : Nat) : Nat := ((f.context? c).bind (·.root)).getD c

/-- The value of a name as a context sees it: its own, or else what its parent sees. -/
def get? : Forest → Nat → String → Option Value
  | [], _, _ => none
  | ctx :: older, c, name =>
    if c = older.length then
      ctx.frame.get? name <|> ctx.parent.bind fun p => get? older p name
    else get? older c name

/-- Binds a name in a context itself. -/
def declare (f : Forest) (c : Nat) (name : String) (value : Value) : Forest :=
  f.update c (·.declare name value)

/-- Changes the nearest binding of a name as a context sees it, and tells whether there is one. -/
def set : Forest → Nat → String → Value → Bool × Forest
  | [], _, _, _ => (false, [])
  | ctx :: older, c, name, value =>
    if c = older.length then
      if (ctx.frame.get? name).isSome then
        (true, { ctx with frame := ctx.frame.declare name value } :: older)
      else
        match ctx.parent with
        | some p => (set older p name value).map id (ctx :: ·)
        | none => (false, ctx :: older)
    else (set older c name value).map id (ctx :: ·)

/-- Adds a function to a context. -/
def register (f : Forest) (c : Nat) (function : Function) : Forest :=
  f.update c (·.register function)

/-- The function of a name as a context sees it: its own, or else the one that its parent sees. -/
def function? : Forest → Nat → String → Option Function
  | [], _, _ => none
  | ctx :: older, c, name =>
    if c = older.length then
      ctx.frame.function? name <|> ctx.parent.bind fun p => function? older p name
    else function? older c name

end Forest

end Linework
