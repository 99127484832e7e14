/-!
# Feeds

An endless supply that is used up from its beginning: what a machine is told from outside, one
answer for each time it asks.
-/

namespace Linework

/-- What there is to take, and how much of it has been taken. -/
structure Feed (α : Type) where
  source : Nat → α
  taken : Nat

namespace Feed

variable {α : Type}

/-- A feed of which nothing has been taken. -/
def ofSource (source : Nat → α) : Feed α := ⟨source, 0⟩

/-- The same answer each time. -/
def constant (a : α) : Feed α := ofSource fun _ => a

/-- What comes next, and the feed after it. -/
def next (f : Feed α) : α × Feed α := (f.source f.taken, { f with taken := f.taken + 1 })

end Feed

end Linework
