import Mathlib.Data.List.Forall2
import Linework.Proofs.Laws

/-!
# What evaluation leaves alone

Two laws for two places. The body of a function declares in its own frame, so that all contexts keep
their names and their functions. An expression can change nothing but the values of globals, through
such bodies; without a call it cannot change those either.
-/

namespace Linework

/-- The same names are bound in a frame. -/
def Frame.SameNames (f g : Frame) : Prop := ∀ name, (g.get? name).isSome = (f.get? name).isSome

/-- A declaration of a name that is bound already binds no new name. -/
lemma Frame.sameNames_declare {f : Frame} {name : String} (bound : (f.get? name).isSome)
    (value : Value) : f.SameNames (f.declare name value) := by
  intro other
  rw [Frame.get?_declare]
  split
  · next same => rw [same, bound, Option.isSome_some]
  · rfl

/-- A context is the same up to the values of its variables. -/
structure Context.Alike (ctx ctx' : Context) : Prop where
  parent : ctx'.parent = ctx.parent
  root : ctx'.root = ctx.root
  functions : ctx'.frame.functions = ctx.frame.functions
  names : ctx.frame.SameNames ctx'.frame

namespace Context.Alike

/-- A context is like itself. -/
lemma refl (ctx : Context) : ctx.Alike ctx := ⟨rfl, rfl, rfl, fun _ => rfl⟩

/-- Contexts that are like a third one are alike. -/
lemma trans {a b c : Context} (h : a.Alike b) (h' : b.Alike c) : a.Alike c where
  parent := h'.parent.trans h.parent
  root := h'.root.trans h.root
  functions := h'.functions.trans h.functions
  names name := (h'.names name).trans (h.names name)

end Context.Alike

/-- The contexts are the same up to the values of their variables. -/
abbrev Forest.Alike (f f' : Forest) : Prop := List.Forall₂ Context.Alike f f'

namespace Forest

variable {f f' f'' : Forest}

/-- Contexts are like themselves. -/
lemma alike_refl (f : Forest) : f.Alike f := List.forall₂_same.mpr fun ctx _ => .refl ctx

/-- Contexts that are like third ones are alike. -/
lemma Alike.trans (h : f.Alike f') (h' : f'.Alike f'') : f.Alike f'' := by
  induction h generalizing f'' with
  | nil => exact h'
  | cons first _ ih =>
    cases h' with
    | cons first' rest' => exact .cons (first.trans first') (ih rest')

/-- Contexts that are alike have one shape. -/
lemma Alike.shape (h : f.Alike f') : f'.shape = f.shape := by
  induction h with
  | nil => rfl
  | cons first _ ih =>
    rw [shape_cons, shape_cons, first.parent, first.root, first.functions, ih]

/-- An assignment binds no new name. -/
lemma alike_set (f : Forest) (c : Nat) (name : String) (value : Value) :
    f.Alike (f.set c name value).2 := by
  induction f generalizing c with
  | nil => exact .nil
  | cons ctx older ih =>
    rw [set]
    split
    · split
      · next bound =>
        exact .cons ⟨rfl, rfl, rfl, Frame.sameNames_declare bound value⟩ (alike_refl older)
      · split
        · next p _ => exact .cons (.refl ctx) (ih p)
        · exact alike_refl _
    · exact .cons (.refl ctx) (ih c)

end Forest

/-- The current context is the same, and all contexts are up to the values of their variables. -/
structure Scope.Kept (s t : Scope) : Prop where
  here : t.here = s.here
  contexts : s.contexts.Alike t.contexts

namespace Scope.Kept

variable {s t u : Scope}

/-- A scope is kept if nothing happens. -/
lemma refl (s : Scope) : s.Kept s := ⟨rfl, Forest.alike_refl _⟩

/-- What is kept twice is kept. -/
lemma trans (h : s.Kept t) (h' : t.Kept u) : s.Kept u :=
  ⟨h'.here.trans h.here, h.contexts.trans h'.contexts⟩

/-- The shape is kept with the functions of the frame. -/
lemma shape (h : s.Kept t) (own : t.own.map Frame.functions = s.own.map Frame.functions) :
    t.shape = s.shape := by
  rw [Scope.shape, Scope.shape, own, h.here, h.contexts.shape]

/-- In the frame of a function a declaration is local. -/
lemma declare (inside : s.own.isSome) (name : String) (value : Value) :
    s.Kept (s.declare name value) := by
  obtain ⟨own, contexts, here⟩ := s
  cases own with
  | some frame => exact ⟨rfl, Forest.alike_refl _⟩
  | none => cases inside

/-- An assignment binds no new name. -/
lemma assign? {name : String} {value : Value} (changed : s.assign? name value = some t) :
    s.Kept t := by
  obtain ⟨own, contexts, here⟩ := s
  rw [Scope.assign?] at changed
  split at changed
  · cases changed
    exact ⟨rfl, Forest.alike_refl _⟩
  · have alike := contexts.alike_set here name value
    split at changed
    · next contexts' set =>
      cases changed
      rw [set] at alike
      exact ⟨rfl, alike⟩
    · cases changed

end Scope.Kept

/-- The law of expressions: the frame of the function stays as it is, and the contexts keep their
functions and their names. -/
def evaluating : Law where
  holds m := m.scope.AllFunctions Function.IsOrdinary
  step m n := n.scope.own = m.scope.own ∧ m.scope.Kept n.scope
  ends _ := True
  refl _ := ⟨rfl, .refl _⟩
  trans h h' := ⟨h'.1.trans h.1, h.2.trans h'.2⟩
  keeps h h' := h.of_shape (h'.2.shape (congrArg _ h'.1))

/-- The law of function bodies: there is a frame, which keeps its functions, and the contexts keep
their functions and their names. -/
def inBody : Law where
  holds m := m.scope.AllFunctions Function.IsOrdinary ∧ m.scope.own.isSome
  step m n := n.scope.own.map Frame.functions = m.scope.own.map Frame.functions ∧
    m.scope.Kept n.scope
  ends _ := True
  refl _ := ⟨rfl, .refl _⟩
  trans h h' := ⟨h'.1.trans h.1, h.2.trans h'.2⟩
  keeps {m n} h h' := by
    refine ⟨h.1.of_shape (h'.2.shape h'.1), ?_⟩
    rw [← Option.isSome_map (x := n.scope.own), h'.1, Option.isSome_map]
    exact h.2

/-- Expressions may do all that has nothing to do with the scope. -/
lemma lenient_evaluating : evaluating.Lenient :=
  ⟨fun _ _ => evaluating.refl _, fun _ _ => evaluating.refl _, fun _ _ => evaluating.refl _,
    fun _ _ => evaluating.refl _⟩

namespace Obeys

variable {line : Nat}

/-- Expressions may report. -/
lemma diagnose_evaluating (cause : Diagnostic.Cause) :
    Obeys (evaluating.onLine line) (Run.diagnose cause) :=
  diagnose fun _ _ _ => ⟨⟨rfl, .refl _⟩, rfl⟩

/-- What is allowed to an expression is allowed in the body of a function. -/
lemma inBody {α : Type} {x : Run α} (h : Obeys (evaluating.onLine line) x) :
    Obeys (inBody.onLine line) x := by
  refine h.mono (fun holds => ⟨holds.1.1, holds.2⟩) ?_ id
  rintro m n _ ⟨⟨own, kept⟩, same⟩
  exact ⟨⟨congrArg _ own, kept⟩, same⟩

/-- In the body of a function a declaration is local. -/
lemma declare_inBody (name : String) (value : Value) :
    Obeys (Linework.inBody.onLine line) (Run.declare name value) := by
  refine update ?_
  rintro m ⟨⟨_, inside⟩, _⟩
  have own : (m.scope.declare name value).own.map Frame.functions =
      m.scope.own.map Frame.functions := congrArg (·.1) (m.scope.shape_declare name value)
  exact ⟨⟨own, .declare inside name value⟩, rfl⟩

/-- An assignment binds no new name. -/
lemma assign_inBody (name : String) (value : Value) :
    Obeys (Linework.inBody.onLine line) (Run.assign name value) := by
  refine assign ?_ (diagnose_evaluating _).inBody
  intro m scope _ changed
  have own : scope.own.map Frame.functions = m.scope.own.map Frame.functions :=
    congrArg (·.1) (Scope.shape_assign? changed)
  exact ⟨⟨own, .assign? changed⟩, rfl⟩

end Obeys

section

variable {limits : Limits} {invoke : Invoke}

/-- Calls that change nothing but the values of globals. -/
def Invoke.Framed (invoke : Invoke) : Prop :=
  ∀ line name arguments, Obeys (evaluating.onLine line) (invoke name arguments)

/-- What expressions are made of is under their law if calls are. -/
lemma Invoke.Framed.admits (h : invoke.Framed) (line : Nat) (refs callees : List String) :
    (evaluating.onLine line).Admits invoke refs callees where
  draw := .draw (lenient_evaluating.onLine line).random
  lookup _ _ := .lookup (.diagnose_evaluating _)
  call name _ arguments := h line name arguments

/-- What statements are made of is under the law of function bodies if calls are under that of
expressions. -/
lemma Invoke.Framed.allows (h : invoke.Framed) (s : Statement) :
    inBody.Allows limits invoke s where
  spend := Obeys.inBody (.spend (lenient_evaluating.onLine s.line)
    (fun m _ _ _ => (evaluating.onLine s.line).refl m) fun _ _ _ _ => trivial)
  formula f _ := by
    refine Obeys.inBody (obeys_formula (h.admits s.line _ _) fun _ _ => ?_)
    exact .diagnose_evaluating _
  declare name _ value := .declare_inBody name value
  store name _ op value :=
    .store (.assign_inBody name) (Obeys.diagnose_evaluating _).inBody op value
  yields _ := trivial

/-- A block is under the law of function bodies. -/
lemma Invoke.Framed.block (h : invoke.Framed) (fuel : Nat) (b : Block) :
    Obeys inBody (executeBlock limits invoke fuel b) :=
  obeys_block (fun _ _ => inBody.refl _) (fun _ _ => trivial) b fun s _ => h.allows s

/-- A call of a function whose body is under its law is under the law of expressions. -/
lemma Invoke.Framed.call (h : invoke.Framed) (fuel line : Nat) {f : Function}
    (ordinary : f.IsOrdinary) (arguments : List Value) :
    Obeys (evaluating.onLine line) (f.call limits invoke fuel arguments) := by
  have lenient := lenient_evaluating.onLine line
  obtain builtin | ⟨block, body⟩ := ordinary
  · exact .call_builtin lenient builtin limits invoke fuel arguments
  · rw [Function.call, body]
    refine .bind (.update fun m _ => lenient.log m _) fun _ => ?_
    refine obeys_runBody inBody ?_ ?_ id id (.stop lenient fun _ _ => trivial) (h.block fuel _)
    · rintro m ⟨holds, _⟩
      refine ⟨holds.behind ?_, rfl⟩
      rintro _ ⟨⟩
      exact f.functions_frame arguments
    · rintro m n ⟨holds, _⟩ ⟨_, kept⟩
      exact ⟨⟨rfl, rfl, kept.contexts⟩, rfl⟩

end

/-- Calls change nothing but the values of globals. -/
lemma framed_callByName (limits : Limits) (fuel : Nat) : (callByName limits fuel).Framed := by
  induction fuel with
  | zero => exact fun _ _ _ => .outOfFuel
  | succ fuel ih =>
    intro line name arguments
    refine .read fun m holds => ?_
    split
    · next f found => exact ih.call fuel line (holds.1.found found) arguments
    · exact (Obeys.diagnose_evaluating _).bind fun _ => .pure _

/-- The law of expressions without calls: all that is in scope stays as it is, and nothing is
printed or paid for. -/
def callFree : Law where
  holds _ := True
  step m n := n.scope = m.scope ∧ n.console = m.console ∧ n.budget = m.budget
  ends _ := True
  refl _ := ⟨rfl, rfl, rfl⟩
  trans h h' := ⟨h'.1.trans h.1, h'.2.1.trans h.2.1, h'.2.2.trans h.2.2⟩
  keeps _ _ := trivial

/-- An expression without calls is under its law. -/
lemma callFree_eval {invoke : Invoke} {e : Expr} (h : e.callees = []) :
    Obeys callFree (e.eval invoke) := by
  refine obeys_eval e ⟨.draw fun _ _ => ⟨rfl, rfl, rfl⟩, fun _ _ => ?_, ?_⟩
  · exact .lookup (.diagnose fun _ _ _ => ⟨rfl, rfl, rfl⟩)
  · rw [h]
    exact List.forall_mem_nil _

/-- However the evaluation of an expression ends, in a root or in the frame of a function called
there: the variables of that frame are the same, and every context binds the same names and has the
same functions. Without a call in the expression the values of all variables, the output and the
budget are the same too. -/
theorem eval_frame (limits : Limits) (fuel : Nat) (e : Expr) {m n : Machine}
    {r : Except Interrupt Value} (ordinary : m.scope.AllFunctions Function.IsOrdinary)
    (ended : (e.eval (callByName limits fuel)).on m = some (r, n)) :
    n.scope.own = m.scope.own ∧ n.scope.here = m.scope.here ∧
    List.Forall₂ (fun ctx ctx' : Context => ctx'.parent = ctx.parent ∧
      (∀ name, (ctx'.frame.get? name).isSome = (ctx.frame.get? name).isSome) ∧
      ctx'.frame.functions = ctx.frame.functions) m.scope.contexts n.scope.contexts ∧
    (e.callees = [] → n.scope = m.scope ∧ n.console = m.console ∧ n.budget = m.budget) := by
  have obeys := obeys_eval e ((framed_callByName limits fuel).admits m.line _ _)
  obtain ⟨⟨own, kept⟩, -⟩ := (obeys m r n ⟨ordinary, rfl⟩ ended).1
  refine ⟨own, kept.here, kept.contexts.imp ?_, fun free => ?_⟩
  · exact fun ctx ctx' alike => ⟨alike.parent, alike.names, alike.functions⟩
  · exact (callFree_eval free m r n trivial ended).1

/-- A function that declares a name of its own, changes a global and ends with a stray `break`. -/
def spoil : Definition where
  name := "spoil"
  params := []
  body :=
    [.plain 2 (.declare "x" none), .plain 3 (.assign "PI" .assign ⟨"0", .ok (.literal .null)⟩),
      .plain 4 (.exit .leave)]

/-- A machine in a call in which `x` is true. -/
def spoiled : Machine :=
  { Engine.quiet.machine.restart builtinRoot ⟨[], [spoil], []⟩ with
    scope.own := some ⟨[("x", .bool true)], []⟩ }

/-- What a context binds to a name. -/
def boundIn (n : Machine) (c : Nat) (name : String) : Option Value :=
  n.scope.contexts.get? c name

/-- The global is changed, the frame of the caller and the names of the root are not. -/
theorem eval_frame_spoil :
    spoiled.scope.AllFunctions Function.IsOrdinary ∧
    ∃ r n, ((Expr.call ⟨.identifier, "spoil", none, 1⟩ []).eval
        (callByName Limits.default 2)).on spoiled = some (r, n) ∧
      r.isOk = false ∧ (boundIn n 0 "PI").map Value.isTruthy = some false ∧
      n.scope.own = spoiled.scope.own ∧ (boundIn n 0 "x").isSome = false := by
  have ordinary : spoiled.scope.AllFunctions Function.IsOrdinary := by
    obtain ⟨root, -⟩ := ordinary_restart Engine.quiet.machine ⟨[], [spoil], []⟩
    refine ⟨root, ?_⟩
    rintro _ ⟨⟩
    exact List.forall_mem_nil _
  have found : (((Expr.call ⟨.identifier, "spoil", none, 1⟩ []).eval
      (callByName Limits.default 2)).on spoiled).map (fun p =>
        (p.1.isOk, (boundIn p.2 0 "PI").map Value.isTruthy, (boundIn p.2 0 "x").isSome)) =
      some (false, some false, false) := by
    decide +kernel
  obtain ⟨⟨r, n⟩, ended, e⟩ := Option.map_eq_some_iff.mp found
  obtain ⟨aborted, e⟩ := Prod.mk.inj e
  obtain ⟨changed, absent⟩ := Prod.mk.inj e
  exact ⟨ordinary, r, n, ended, aborted, changed, (eval_frame _ 2 _ ordinary ended).1, absent⟩

end Linework
