import Linework.Function

/-!
# Frames

A frame is one place where names are declared: it binds names to values and holds functions.
-/

namespace Linework

/-- Bindings of names to values, each name once. -/
abbrev Bindings := List (String × Value)

/-- Binds a name, in place of its old binding if it has one. -/
def Bindings.put (name : String) (value : Value) : Bindings → Bindings
  | [] => [(name, value)]
  | (other, old) :: rest =>
    if other = name then (other, value) :: rest else (other, old) :: put name value rest

/-- After a name is bound, it has the new value and every other name its old one. -/
theorem Bindings.lookup_put (name other : String) (value : Value) (b : Bindings) :
    (put name value b).lookup other = if other = name then some value else b.lookup other := by
  induction b with
  | nil =>
    by_cases h : other = name
    · simp [put, h]
    · simp [put, List.lookup_cons, beq_eq_false_iff_ne.mpr h, h]
  | cons binding rest ih =>
    obtain ⟨key, old⟩ := binding
    by_cases hk : key = name
    · by_cases h : other = name
      · simp [put, hk, h]
      · simp [put, hk, h, List.lookup_cons, beq_eq_false_iff_ne.mpr h]
    · by_cases h : other = key
      · subst h
        simp [put, hk]
      · simp [put, hk, List.lookup_cons, beq_eq_false_iff_ne.mpr h, ih]

/-- Variables and functions declared in one place. -/
structure Frame where
  values : Bindings
  functions : List Function

namespace Frame

/-- A frame with nothing in it. -/
def empty : Frame := ⟨[], []⟩

/-- The value of a name. -/
def get? (f : Frame) (name : String) : Option Value := f.values.lookup name

/-- Binds a name. -/
def declare (f : Frame) (name : String) (value : Value) : Frame :=
  { f with values := f.values.put name value }

/-- What a frame says about a name after a declaration. -/
theorem get?_declare (f : Frame) (name other : String) (value : Value) :
    (f.declare name value).get? other = if other = name then some value else f.get? other :=
  Bindings.lookup_put name other value f.values

/-- The function of a name: the one registered first. -/
def function? (f : Frame) (name : String) : Option Function :=
  f.functions.find? (·.name = name)

/-- Adds a function. It stays hidden as long as an earlier one has its name. -/
def register (f : Frame) (function : Function) : Frame :=
  { f with functions := f.functions ++ [function] }

end Frame

end Linework
