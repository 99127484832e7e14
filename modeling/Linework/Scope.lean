import Linework.Scope.Forest

/-!
# Scopes

A scope is what a statement sees: the frame of the script function that is running, if there is
one, and behind it one of the contexts with its ancestors. The nearest binding of a name counts.
The frame of a function belongs to its call alone; contexts are shared by all that know their
number.
-/

namespace Linework

/-- What a statement sees. -/
structure Scope where
  /-- The frame of the function that is running. -/
  own : Option Frame
  /-- All contexts there are. -/
  contexts : Forest
  /-- The context behind the frame. -/
  here : Nat

namespace Scope

/-- The scope of a frame before a new root. -/
def above (own : Option Frame) (root : Frame) (older : Forest) : Scope :=
  ⟨own, older.make root none, older.length⟩

/-- The topmost ancestor of the context. -/
def root (s : Scope) : Nat := s.contexts.rootOf s.here

/-- The value of a variable. -/
def get? (s : Scope) (name : String) : Option Value :=
  s.own.bind (·.get? name) <|> s.contexts.get? s.here name

/-- Binds a name in the frame of the function, or in the context if none is running. -/
def declare (s : Scope) (name : String) (value : Value) : Scope :=
  match s.own with
  | some frame => { s with own := some (frame.declare name value) }
  | none => { s with contexts := s.contexts.declare s.here name value }

/-- Changes a variable that is declared. -/
def assign? (s : Scope) (name : String) (value : Value) : Option Scope :=
  match s.own.filter fun frame => (frame.get? name).isSome with
  | some frame => some { s with own := some (frame.declare name value) }
  | none =>
    match s.contexts.set s.here name value with
    | (true, contexts) => some { s with contexts := contexts }
    | (false, _) => none

/-- The function of a name. -/
def function? (s : Scope) (name : String) : Option Function :=
  s.own.bind (·.function? name) <|> s.contexts.function? s.here name

end Scope

end Linework
