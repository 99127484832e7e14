import Mathlib.Data.List.Basic
import Linework.Proofs.Shadowing
import Linework.Engine

/-!
# What is in sight

Statements outside of all functions work in a root, and so do the bodies of functions, behind a
frame of their own. There a name means what the frame or the root says, whatever other contexts
there are. Declarations and assignments change values only: the shape of a scope, which is all that
is not a value, stays the same. The functions in sight (`Scope.AllFunctions`) are part of the shape.
-/

namespace Linework

namespace Forest

/-- The functions of all contexts. -/
def functions (f : Forest) : List Function := f.flatMap (·.frame.functions)

/-- All about the contexts but their values. -/
def shape (f : Forest) : List (List Function × Option Nat × Option Nat) :=
  f.map fun ctx => (ctx.frame.functions, ctx.parent, ctx.root)

/-- A context is a root with the given frame. -/
def HasRoot (f : Forest) (c : Nat) (frame : Frame) : Prop :=
  f.context? c = some ⟨frame, none, none⟩

/-- New contexts without functions are made at most, and of the old ones only values change. -/
def Extends (f' f : Forest) : Prop :=
  ∃ made, f'.shape = made ++ f.shape ∧ ∀ entry ∈ made, entry.1 = []

section

variable {f older : Forest} {c : Nat} {frame : Frame} {name : String}

/-- The functions are part of the shape. -/
lemma functions_eq (f : Forest) : f.functions = f.shape.flatMap (·.1) := by
  rw [functions, shape, List.flatMap_map]

/-- The shape of the latest context and that of the older ones. -/
lemma shape_cons (ctx : Context) (older : Forest) :
    shape (ctx :: older) = (ctx.frame.functions, ctx.parent, ctx.root) :: older.shape := rfl

/-- A change of a frame that leaves its functions alone leaves the shape alone. -/
lemma shape_update {g : Frame → Frame} (same : ∀ frame, (g frame).functions = frame.functions)
    (c : Nat) (f : Forest) : (f.update c g).shape = f.shape := by
  induction f with
  | nil => rfl
  | cons ctx older ih =>
    rw [update]
    split
    · rw [shape_cons, shape_cons, same]
    · rw [shape_cons, shape_cons, ih]

/-- A declaration leaves the shape alone. -/
lemma shape_declare (f : Forest) (c : Nat) (name : String) (value : Value) :
    (f.declare c name value).shape = f.shape :=
  shape_update (g := (·.declare name value)) (fun _ => rfl) c f

/-- An assignment leaves the shape alone. -/
lemma shape_set (f : Forest) (c : Nat) (name : String) (value : Value) :
    (f.set c name value).2.shape = f.shape := by
  induction f generalizing c with
  | nil => rfl
  | cons ctx older ih =>
    rw [set]
    split
    · split
      · rfl
      · split
        · next p _ => exact congrArg (_ :: ·) (ih p)
        · rfl
    · exact congrArg (_ :: ·) (ih c)

/-- Contexts of one shape extend each other. -/
lemma Extends.of_shape {f' : Forest} (same : f'.shape = f.shape) : f'.Extends f :=
  ⟨[], same, List.forall_mem_nil _⟩

/-- Contexts that extend extended ones extend them all. -/
lemma Extends.trans {f' f'' : Forest} (h : f''.Extends f') (h' : f'.Extends f) :
    f''.Extends f := by
  obtain ⟨made, shape, plain⟩ := h
  obtain ⟨made', shape', plain'⟩ := h'
  refine ⟨made ++ made', ?_, List.forall_mem_append.mpr ⟨plain, plain'⟩⟩
  rw [shape, shape', List.append_assoc]

/-- Contexts that extend others have no other functions. -/
lemma Extends.functions {f' : Forest} (h : f'.Extends f) : f'.functions = f.functions := by
  obtain ⟨made, shape, plain⟩ := h
  have none : made.flatMap (·.1) = [] := List.flatMap_eq_nil_iff.mpr plain
  rw [functions_eq, functions_eq, shape, List.flatMap_append, none, List.nil_append]

/-- A function that a context sees is one of some context. -/
lemma mem_of_function? {g : Function} (found : f.function? c name = some g) : g ∈ f.functions := by
  induction f generalizing c with
  | nil => cases found
  | cons ctx older ih =>
    rw [functions, List.flatMap_cons]
    rw [function?] at found
    split at found
    · cases own : ctx.frame.function? name with
      | some h =>
        rw [own] at found
        cases found
        exact List.mem_append_left _ (List.mem_of_find?_eq_some own)
      | none =>
        rw [own] at found
        obtain ⟨p, -, found⟩ := Option.bind_eq_some_iff.mp found
        exact List.mem_append_right _ (ih found)
    · exact List.mem_append_right _ (ih found)

/-- A new root. -/
lemma hasRoot_make (frame : Frame) (older : Forest) :
    (older.make frame none).HasRoot older.length frame :=
  if_pos rfl

namespace HasRoot

/-- A root is its own root. -/
lemma rootOf (h : f.HasRoot c frame) : f.rootOf c = c := by
  rw [Forest.rootOf, h]
  rfl

/-- A root sees its own values only. -/
lemma get? (h : f.HasRoot c frame) (name : String) : f.get? c name = frame.get? name := by
  obtain ⟨newer, older, rfl, rfl⟩ := exists_split h
  rw [get?_append (Nat.lt_succ_self _), Forest.get?, if_pos rfl]
  cases own : frame.get? name <;> rfl

/-- A root sees its own functions only. -/
lemma function? (h : f.HasRoot c frame) (name : String) :
    f.function? c name = frame.function? name := by
  obtain ⟨newer, older, rfl, rfl⟩ := exists_split h
  rw [function?_append (Nat.lt_succ_self _), Forest.function?, if_pos rfl]
  cases own : frame.function? name <;> rfl

/-- A change of the frame of a root. -/
lemma update (h : f.HasRoot c frame) (g : Frame → Frame) : (f.update c g).HasRoot c (g frame) := by
  rw [HasRoot, context?_update, if_pos rfl, h]
  rfl

/-- A declaration in a root. -/
lemma declare (h : f.HasRoot c frame) (name : String) (value : Value) :
    (f.declare c name value).HasRoot c (frame.declare name value) :=
  h.update _

/-- An assignment in a root changes it, if it binds the name. -/
lemma set (h : f.HasRoot c frame) (name : String) (value : Value) :
    f.set c name value =
      if (frame.get? name).isSome then (true, f.declare c name value) else (false, f) := by
  obtain ⟨newer, older, rfl, rfl⟩ := exists_split h
  rw [set_append (Nat.lt_succ_self _), Forest.set, if_pos rfl, Forest.declare,
    update_append (Nat.lt_succ_self _), Forest.update, if_pos rfl]
  split <;> rfl

/-- A root stays one as long as the shape is the same. -/
lemma of_shape {f' : Forest} (h : f.HasRoot c frame) (same : f'.shape = f.shape) :
    ∃ frame', f'.HasRoot c frame' ∧ frame'.functions = frame.functions := by
  induction f generalizing f' with
  | nil => cases h
  | cons ctx older ih =>
    cases f' with
    | nil => cases same
    | cons ctx' older' =>
      obtain ⟨own, rest⟩ := List.cons.inj same
      have length : older'.length = older.length := by
        simpa [shape] using congrArg List.length rest
      rw [HasRoot, context?] at h
      split at h
      · next here =>
        cases h
        obtain ⟨frame', parent, root⟩ := ctx'
        simp only [Prod.mk.injEq] at own
        obtain ⟨functions, rfl, rfl⟩ := own
        exact ⟨frame', if_pos (here.trans length.symm), functions⟩
      · next other =>
        obtain ⟨frame', found, functions⟩ := ih h rest
        exact ⟨frame', (if_neg (length.symm ▸ other)).trans found, functions⟩

/-- A root stays one as long as there are only new contexts. -/
lemma of_extends {f' : Forest} (h : f.HasRoot c frame) (grown : f'.Extends f) :
    ∃ frame', f'.HasRoot c frame' ∧ frame'.functions = frame.functions := by
  obtain ⟨made, shape, -⟩ := grown
  induction made generalizing f' with
  | nil => exact h.of_shape shape
  | cons entry made ih =>
    cases f' with
    | nil => cases shape
    | cons ctx older =>
      obtain ⟨frame', found, functions⟩ := ih (List.cons.inj shape).2
      have here : c < older.length := context?_isSome.mp (Option.isSome_of_eq_some found)
      exact ⟨frame', (if_neg (Nat.ne_of_lt here)).trans found, functions⟩

end HasRoot

end

end Forest

/-- Binding parameters registers no function. -/
lemma functions_bindParams (frame : Frame) (params : List String) (arguments : List Value) :
    (bindParams frame params arguments).functions = frame.functions := by
  induction params generalizing frame arguments with
  | nil => rfl
  | cons param params ih =>
    rw [bindParams, ih]
    split <;> rfl

/-- No function is registered in the frame of a call. -/
@[simp]
lemma Function.functions_frame (f : Function) (arguments : List Value) :
    (f.frame arguments).functions = [] :=
  functions_bindParams _ _ _

namespace Scope

/-- The functions that are registered anywhere. -/
def functions (s : Scope) : List Function :=
  s.own.elim [] Frame.functions ++ s.contexts.functions

/-- All about a scope but its values. -/
def shape (s : Scope) : Option (List Function) × List (List Function × Option Nat × Option Nat) ×
    Nat :=
  (s.own.map Frame.functions, s.contexts.shape, s.here)

/-- New contexts without functions are made at most, and of all else only values change. -/
structure Extends (t s : Scope) : Prop where
  own : t.own.map Frame.functions = s.own.map Frame.functions
  contexts : t.contexts.Extends s.contexts
  here : t.here = s.here

/-- The current context is a root, and every function in sight has a property. -/
structure AllFunctions (P : Function → Prop) (s : Scope) : Prop where
  root : ∃ frame, s.contexts.HasRoot s.here frame ∧ ∀ f ∈ frame.functions, P f
  own : ∀ frame ∈ s.own, ∀ f ∈ frame.functions, P f

section

variable {s t : Scope} {P : Function → Prop} {name : String} {value : Value}

/-- Scopes of one shape extend each other. -/
lemma Extends.of_shape (same : t.shape = s.shape) : t.Extends s := by
  obtain ⟨own, contexts, here⟩ := by simpa only [shape, Prod.mk.injEq] using same
  exact ⟨own, .of_shape contexts, here⟩

/-- A scope that extends an extended one extends both. -/
lemma Extends.trans {u : Scope} (h : u.Extends t) (h' : t.Extends s) : u.Extends s :=
  ⟨h.own.trans h'.own, h.contexts.trans h'.contexts, h.here.trans h'.here⟩

/-- A scope that extends another one has the same functions. -/
lemma Extends.functions (h : t.Extends s) : t.functions = s.functions := by
  have frames (s : Scope) :
      s.own.elim [] Frame.functions = (s.own.map Frame.functions).getD [] := by
    cases s.own <;> rfl
  rw [Scope.functions, Scope.functions, frames, frames, h.own, h.contexts.functions]

/-- What keeps the shape of a scope keeps that of its contexts, in whatever scope they are seen. -/
lemma shape_back (same : t.shape = s.shape) (own : Option Frame) (here : Nat) :
    shape ⟨own, t.contexts, here⟩ = shape ⟨own, s.contexts, here⟩ := by
  have contexts : t.contexts.shape = s.contexts.shape := congrArg (·.2.1) same
  rw [shape, shape, contexts]

/-- A declaration leaves the shape alone. -/
lemma shape_declare (s : Scope) (name : String) (value : Value) :
    (s.declare name value).shape = s.shape := by
  obtain ⟨own, contexts, here⟩ := s
  cases own with
  | some frame => rfl
  | none => exact congrArg (none, ·, here) (Forest.shape_declare _ _ _ _)

/-- An assignment leaves the shape alone. -/
lemma shape_assign? (changed : s.assign? name value = some t) : t.shape = s.shape := by
  obtain ⟨own, contexts, here⟩ := s
  rw [assign?] at changed
  split at changed
  · next frame bound =>
    cases changed
    rw [shape, shape, (Option.filter_eq_some_iff.mp bound).1]
    rfl
  · have same := contexts.shape_set here name value
    split at changed
    · next contexts' set =>
      cases changed
      rw [set] at same
      exact congrArg (own.map Frame.functions, ·, here) same
    · cases changed

/-- A name that the frame of the call binds is changed there. -/
lemma assign?_of_own {frame : Frame} (own : s.own = some frame)
    (bound : (frame.get? name).isSome = true) (value : Value) :
    s.assign? name value = some { s with own := some (frame.declare name value) } := by
  rw [assign?, own, Option.filter_some, if_pos bound]

/-- Any other name is changed in the root, if it is bound there. -/
lemma assign?_of_root {frame : Frame} (root : s.contexts.HasRoot s.here frame)
    (free : ∀ own ∈ s.own, (own.get? name).isSome = false) (value : Value) :
    s.assign? name value = if (frame.get? name).isSome then
      some { s with contexts := s.contexts.declare s.here name value } else none := by
  have none : s.own.filter (fun own => (own.get? name).isSome) = none := by
    rw [Option.filter_eq_none_iff]
    intro own mem
    rw [free own mem]
    exact Bool.false_ne_true
  rw [assign?, none]
  dsimp only
  rw [root.set]
  cases (frame.get? name).isSome <;> rfl

/-- The function of a name is registered somewhere. -/
lemma mem_of_function? {f : Function} (found : s.function? name = some f) : f ∈ s.functions := by
  rw [function?] at found
  cases near : s.own.bind (·.function? name) with
  | some g =>
    rw [near] at found
    cases found
    obtain ⟨frame, own, found⟩ := Option.bind_eq_some_iff.mp near
    rw [functions, own]
    exact List.mem_append_left _ (List.mem_of_find?_eq_some found)
  | none =>
    rw [near] at found
    exact List.mem_append_right _ (Forest.mem_of_function? found)

namespace AllFunctions

/-- The functions in sight stay the same if there are only new contexts. -/
lemma of_extends (h : s.AllFunctions P) (grown : t.Extends s) : t.AllFunctions P := by
  obtain ⟨⟨frame, root, all⟩, locals⟩ := h
  obtain ⟨frame', root', functions⟩ := root.of_extends grown.contexts
  refine ⟨⟨frame', grown.here ▸ root', functions ▸ all⟩, ?_⟩
  intro frame mem f
  have mapped : some frame.functions = s.own.map Frame.functions := by
    rw [← grown.own, Option.mem_def.mp mem]
    rfl
  obtain ⟨frame₁, mem₁, functions⟩ := Option.map_eq_some_iff.mp mapped.symm
  exact functions ▸ locals frame₁ mem₁ f

/-- The functions in sight stay the same as long as the shape does. -/
lemma of_shape (h : s.AllFunctions P) (same : t.shape = s.shape) : t.AllFunctions P :=
  h.of_extends (.of_shape same)

/-- The function of a name is in sight. -/
lemma found (h : s.AllFunctions P) {f : Function} (found : s.function? name = some f) : P f := by
  obtain ⟨⟨frame, root, all⟩, locals⟩ := h
  rw [function?, root.function?] at found
  cases near : s.own.bind (·.function? name) with
  | some g =>
    rw [near] at found
    cases found
    obtain ⟨frame, own, found⟩ := Option.bind_eq_some_iff.mp near
    exact locals frame own f (List.mem_of_find?_eq_some found)
  | none =>
    rw [near] at found
    exact all f (List.mem_of_find?_eq_some found)

/-- The root of the scope is where it is. -/
lemma root_eq (h : s.AllFunctions P) : s.root = s.here := by
  obtain ⟨⟨frame, root, -⟩, -⟩ := h
  exact root.rootOf

/-- Behind another frame without functions the same functions are in sight. -/
lemma behind (h : s.AllFunctions P) {own : Option Frame}
    (none : ∀ frame ∈ own, frame.functions = []) : AllFunctions P ⟨own, s.contexts, s.root⟩ where
  root := by
    rw [h.root_eq]
    exact h.root
  own frame mem := by
    rw [none frame mem]
    exact List.forall_mem_nil _

/-- Only functions with the property are in sight of a new root. -/
lemma above {root : Frame} (all : ∀ f ∈ root.functions, P f) (older : Forest) :
    (Scope.above none root older).AllFunctions P where
  root := ⟨root, Forest.hasRoot_make root older, all⟩
  own := nofun

end AllFunctions

end

end Scope

/-- A function of a script, or one of the built-in ones. -/
def Function.IsOrdinary (f : Function) : Prop :=
  f ∈ Host.builtins ∨ ∃ block, f.body = .script block

/-- A call of a built-in function prints a line or asks for the time, and does nothing else. -/
lemma call_builtin {f : Function} (builtin : f ∈ Host.builtins) (arguments : List Value) :
    (∃ text, ∀ limits invoke fuel, f.call limits invoke fuel arguments =
      Run.print text >>= fun _ => pure .undefined) ∨
    ∀ limits invoke fuel, f.call limits invoke fuel arguments =
      Run.tellTime >>= fun now => pure (Host.seconds now) := by
  simp only [Host.builtins, List.mem_cons, List.not_mem_nil, or_false] at builtin
  obtain rfl | rfl := builtin
  · refine .inl ⟨" ".intercalate (arguments.map Host.debugText), fun _ _ _ => Run.ext fun m => ?_⟩
    -- neither printing nor the time depends on the scope, which is put back
    obtain ⟨_, _, _, _, _, ⟨_, broken⟩, _, _, _, _, _⟩ := m
    cases broken <;> rfl
  · exact .inr fun _ _ _ => Run.ext fun _ => rfl

/-- The root frame with the globals and the built-in functions. -/
def builtinRoot : Frame := ⟨Engine.globals, Host.builtins⟩

example (random : Feed Float) (clock : Feed (Option Nat)) (watch : Watch) :
    (Engine.new random clock watch).rootFrame = builtinRoot := rfl

/-- At the start of a run the functions of the root frame and those of the script are in sight. -/
lemma allFunctions_restart {P : Function → Prop} {root : Frame} {script : Script}
    (offered : ∀ f ∈ root.functions, P f) (defined : ∀ d ∈ script.functions, P d.toFunction)
    (m : Machine) : (m.restart root script).scope.AllFunctions P := by
  refine .above (fun f mem => ?_) _
  rcases List.mem_append.mp mem with host | own
  · exact offered f host
  · obtain ⟨d, mem', rfl⟩ := List.mem_map.mp own
    exact defined d mem'

/-- At the start of a run with the built-in functions only those and the functions of the script
are in sight. -/
lemma ordinary_restart (m : Machine) (script : Script) :
    (m.restart builtinRoot script).scope.AllFunctions Function.IsOrdinary :=
  allFunctions_restart (fun _ => .inl) (fun d _ => .inr ⟨d.body, rfl⟩) m

end Linework
