import Linework.Machine.Execute

/-!
# Calling functions

A script function runs in a frame of its own before the root of the context it is called from, so
that it sees its parameters and the globals and nothing of its caller. A host function names the
contexts in which it works. `fuel` bounds the calls within calls and the rounds of each loop.
-/

namespace Linework

/-- Binds parameters to arguments by position. Missing arguments are undefined, further ones are
dropped, and a rest parameter takes an argument without binding it. -/
def bindParams (frame : Frame) : List String → List Value → Frame
  | [], _ => frame
  | param :: params, arguments =>
    let value := arguments.headD .undefined
    let frame := if isRest param then frame else frame.declare param value
    bindParams frame params arguments.tail

/-- The frame in which the body of a function starts. -/
def Function.frame (f : Function) (arguments : List Value) : Frame :=
  bindParams Frame.empty f.params arguments

/-- Registers a function in a context. -/
def Run.register (context : Nat) (f : Function) : Run Unit :=
  update fun m => { m with scope.contexts := m.scope.contexts.register context f }

/-- Answers a request of the host. -/
def HostRequest.answer : (request : HostRequest) → Run request.Reply
  | .print line => Run.print line
  | .clock => Run.tellTime
  | .get context name => Run.read (·.scope.contexts.get? context name)
  | .declare context name value =>
    Run.update fun m => { m with scope.contexts := m.scope.contexts.declare context name value }
  | .set context name value => do
    let (found, contexts) := (← Run.read (·.scope.contexts)).set context name value
    Run.update fun m => { m with scope.contexts := contexts }
    return found
  | .make parent => do
    let contexts ← Run.read (·.scope.contexts)
    Run.update fun m => { m with scope.contexts := contexts.make Frame.empty parent }
    return contexts.length
  | .rootOf context => Run.read (·.scope.contexts.rootOf context)
  | .find context name => Run.read fun m =>
    (m.scope.contexts.function? context name).map Function.signature
  | .adopt source name target => do
    match (← Run.read (·.scope.contexts)).function? source name with
    | some f => Run.register target f
    | none => pure ()
  | .define context definition => Run.register context definition.toFunction
  | .identify => do
    let id ← Run.read (·.nextIdentity)
    Run.update fun m => { m with nextIdentity := id + 1 }
    return id
  | .remembered key => Run.read (·.memory.lookup key)
  | .remember key value => Run.update fun m => { m with memory := m.memory.put key value }

/-- Does the work of a host function. -/
def HostProgram.perform (invoke : Invoke) : HostProgram → Run Value
  | .done value => pure value
  | .hang => Run.outOfFuel
  | .ask request next => do
    let reply ← request.answer
    (next reply).perform invoke
  | .evaluate context source next => do
    let r ← Run.inside none context ((Formula.compile source.toList).eval invoke)
    (next r).perform invoke
  | .call context name arguments next => do
    let r ← Run.inside none context (invoke name arguments)
    (next r).perform invoke
  | .offer context name params program next => do
    Run.register context ⟨name, params, .host program⟩
    next.perform invoke

/-- Runs the body of a script function, and resolves how it ends. The line of the call is the
current one again afterwards. -/
def runBody (limits : Limits) (invoke : Invoke) (fuel : Nat) (frame : Frame) (body : Block) :
    Run Value := do
  Run.openCall limits
  let line ← Run.read (·.line)
  let root ← Run.read (·.scope.root)
  let r ← Run.inside (some frame) root (executeBlock limits invoke fuel body)
  Run.atLine line
  Run.closeCall
  Run.ofExcept ((Interrupt.resolve r).mapError .abort)

/-- The machine on which the body of a called function starts. -/
def Machine.enter (m : Machine) (frame : Frame) : Machine :=
  { m.behind (some frame) m.scope.root with budget.depth := m.budget.depth + 1 }

/-- The machine after a call on `m`, from the machine on which the body has ended. -/
def Machine.leave (m n : Machine) : Machine :=
  { n.behind m.scope.own m.scope.here with line := m.line, budget := n.budget.closeCall }

/-- A call within the limit runs the body in its own frame, and puts the caller's line, frame and
depth back however the body ends. -/
theorem on_runBody (limits : Limits) (invoke : Invoke) (fuel : Nat) (frame : Frame) (body : Block)
    (m : Machine) :
    (runBody limits invoke fuel frame body).on m =
      if m.budget.depth < limits.maxCallDepth then
        ((executeBlock limits invoke fuel body).on (m.enter frame)).map
          fun (r, n) => ((Interrupt.resolve r).mapError .abort, m.leave n)
      else (Run.stop (.callDepth limits.maxCallDepth)).on m := by
  by_cases room : m.budget.depth < limits.maxCallDepth
  · have entered : Machine.behind { m with budget.depth := m.budget.depth + 1 } (some frame)
        m.scope.root = m.enter frame := rfl
    simp only [runBody, Run.openCall, Budget.openCall, Run.atLine, Run.closeCall, Run.on_bind,
      Run.on_update, Run.on_read, Run.on_inside, room, if_true, entered]
    cases (executeBlock limits invoke fuel body).on (m.enter frame) with
    | none => rfl
    | some p =>
      obtain ⟨r, n⟩ := p
      simp only [Option.map_some]
      cases Interrupt.resolve r <;> rfl
  · simp only [runBody, Run.openCall, Budget.openCall, Run.on_bind, Run.on_read, room, if_false,
      Run.on_stop]

/-- Calls a function. -/
def Function.call (limits : Limits) (invoke : Invoke) (fuel : Nat) (f : Function)
    (arguments : List Value) : Run Value :=
  match f.body with
  | .host program => do
    let root ← Run.read (·.scope.root)
    let r ← Run.inside none root ((program root arguments).perform invoke)
    Run.ofExcept r
  | .script body => do
    Run.record (.calling f.name arguments.length)
    runBody limits invoke fuel (f.frame arguments) body

/-- Calls the function that a name has in the current scope. A name without one is reported and the
call is undefined. -/
def callByName (limits : Limits) : (fuel : Nat) → Invoke
  | 0, _, _ => Run.outOfFuel
  | fuel + 1, name, arguments => do
    match (← Run.read (·.scope)).function? name with
    | some f => f.call limits (callByName limits fuel) fuel arguments
    | none =>
      Run.diagnose (.undeclaredFunction name)
      return .undefined

/-- Evaluates the text of an expression. -/
def evaluate (limits : Limits) (fuel : Nat) (text : List Char) : Run Value :=
  (Formula.compile text).eval (callByName limits fuel)

/-- Executes a block. -/
def execute (limits : Limits) (fuel : Nat) (block : Block) : Run Unit :=
  executeBlock limits (callByName limits fuel) fuel block

end Linework
