import Linework.Scope
import Linework.Limits
import Linework.Feed

/-!
# The machine

The state behind a running script, and the actions on it that everything else is made of. An action
ends with a value or an interrupt, and either way with a machine; running out of fuel is the third
way to end and has neither. Random numbers, the time and the watch come from outside: the machine
holds what it will be told and how much of it has been told already.
-/

namespace Linework

/-- Where printed lines go. -/
structure Console where
  lines : Array String
  /-- A broken console loses every line. -/
  broken : Bool

/-- The state of a running script. -/
structure Machine where
  scope : Scope
  budget : Budget
  /-- The line of the statement being executed. -/
  line : Nat
  diagnostics : Array Diagnostic
  /-- Random numbers in `[0, 1)`. -/
  random : Feed Float
  console : Console
  log : Array Event
  /-- The identity of the next object that the host makes. -/
  nextIdentity : Nat
  /-- What the host keeps from one call of its functions to the next. -/
  memory : Bindings
  /-- What a script is told about the time: milliseconds since the epoch, or nothing. -/
  clock : Feed (Option Nat)
  /-- What is told about the time since the beginning of the run. -/
  watch : Watch

/-- The machine behind another frame, in another context. -/
def Machine.behind (m : Machine) (own : Option Frame) (here : Nat) : Machine :=
  { m with scope := ⟨own, m.scope.contexts, here⟩ }

/-- An action on the machine. `none` is running out of fuel. -/
abbrev Run (α : Type) := ExceptT Interrupt (StateT Machine Option) α

namespace Run

/-- Applies an action to a machine. -/
def on {α : Type} (action : Run α) (m : Machine) : Option (Except Interrupt α × Machine) :=
  action.run.run m

/-- Running out of fuel. -/
def outOfFuel {α : Type} : Run α := ExceptT.mk fun _ => none

/-- Reads something off the machine. -/
def read {α : Type} (f : Machine → α) : Run α := do return f (← get)

/-- Changes the machine. -/
def update (f : Machine → Machine) : Run Unit := modify f

/-- An action whose interrupt, if there is one, is its value. -/
def attempt {α : Type} (action : Run α) : Run (Except Interrupt α) :=
  ExceptT.mk fun m => (action.on m).map fun (r, m) => (.ok r, m)

/-- Hands on a value or an interrupt. -/
def ofExcept {α : Type} : Except Interrupt α → Run α
  | .ok a => pure a
  | .error i => throw i

section

variable {α β : Type}

/-- Handing back a value leaves the machine alone. -/
@[simp] theorem on_pure (a : α) (m : Machine) : (pure a : Run α).on m = some (.ok a, m) := rfl

/-- So does an interrupt. -/
@[simp] theorem on_throw (i : Interrupt) (m : Machine) :
    (throw i : Run α).on m = some (.error i, m) := rfl

/-- Without fuel there is neither a result nor a machine. -/
@[simp] theorem on_outOfFuel (m : Machine) : (outOfFuel : Run α).on m = none := rfl

/-- Reading leaves the machine alone. -/
@[simp] theorem on_read (f : Machine → α) (m : Machine) :
    (read f).on m = some (.ok (f m), m) := rfl

/-- A change gives no value. -/
@[simp] theorem on_update (f : Machine → Machine) (m : Machine) :
    (update f).on m = some (.ok (), f m) := rfl

/-- An interrupt that is caught is a value. -/
@[simp] theorem on_attempt (x : Run α) (m : Machine) :
    (attempt x).on m = (x.on m).map fun (r, m) => (.ok r, m) := rfl

/-- Actions are the same if they end alike on all machines. -/
theorem ext {x y : Run α} (h : ∀ m, x.on m = y.on m) : x = y := funext h

/-- The second of two actions starts on the machine that the first one leaves, and not at all if
the first one is interrupted or runs out of fuel. -/
theorem on_bind (x : Run α) (f : α → Run β) (m : Machine) :
    (x >>= f).on m = match x.on m with
      | none => none
      | some (.ok a, m) => (f a).on m
      | some (.error i, m) => some (.error i, m) := by
  change (x m).bind _ = match x m with
    | none => none
    | some (.ok a, m) => (f a).on m
    | some (.error i, m) => some (.error i, m)
  cases h : x m with
  | none => rfl
  | some p =>
    obtain ⟨r, m⟩ := p
    cases r <;> rfl

end

/-- Writes an event into the log. -/
def record (e : Event) : Run Unit := update fun m => { m with log := m.log.push e }

/-- Records a diagnostic for the current line. -/
def diagnose (cause : Diagnostic.Cause) : Run Unit := do
  let d : Diagnostic := ⟨← read (·.line), cause⟩
  record (.diagnosed d)
  update fun m => { m with diagnostics := m.diagnostics.push d }

/-- Ends the run at the current line. -/
def stop {α : Type} (reason : Cancellation) : Run α := do
  let line ← read (·.line)
  record (.cancelling line reason)
  throw (.abort (.cancelled line reason))

/-- The reason is logged, and the run is over. -/
@[simp] theorem on_stop {α : Type} (reason : Cancellation) (m : Machine) :
    (stop reason : Run α).on m = some (.error (.abort (.cancelled m.line reason)),
      { m with log := m.log.push (.cancelling m.line reason) }) := rfl

/-- Makes a line the current one. -/
def atLine (line : Nat) : Run Unit := update fun m => { m with line := line }

/-- Pays for one step. -/
def spend (limits : Limits) : Run Unit := do
  let (refusal, budget) := Budget.spend limits (← read (·.watch)) (← read (·.budget))
  update fun m => { m with budget := budget }
  match refusal with
  | none => pure ()
  | some reason => stop reason

/-- A step is let through and counted, or counted as refused. -/
theorem on_spend (limits : Limits) (m : Machine) :
    (spend limits).on m =
      match Budget.refusal? limits m.watch { m.budget with granted := m.budget.granted + 1 } with
      | none => some (.ok (), { m with budget.granted := m.budget.granted + 1 })
      | some reason => (stop reason).on { m with budget.refused := m.budget.refused + 1 } := by
  simp only [spend, on_bind, on_read, Budget.spend]
  cases Budget.refusal? limits m.watch { m.budget with granted := m.budget.granted + 1 } <;> rfl

/-- Pays for one more function running. -/
def openCall (limits : Limits) : Run Unit := do
  match Budget.openCall limits (← read (·.budget)) with
  | .ok budget => update fun m => { m with budget := budget }
  | .error reason => stop reason

/-- Takes back what `openCall` paid for. -/
def closeCall : Run Unit := update fun m => { m with budget := m.budget.closeCall }

/-- Writes a line of output. -/
def print (line : String) : Run Unit := do
  if (← read (·.console.broken)) then record .outputLost
  else update fun m => { m with console.lines := m.console.lines.push line }

/-- Draws a random number in `[0, 1)`. -/
def draw : Run Float := do
  let (x, random) := (← read (·.random)).next
  update fun m => { m with random := random }
  return x

/-- Asks for the time. -/
def tellTime : Run (Option Nat) := do
  let (now, clock) := (← read (·.clock)).next
  update fun m => { m with clock := clock }
  return now

/-- The value of a variable. A name that is not declared is reported and undefined. -/
def lookup (name : String) : Run Value := do
  match (← read (·.scope)).get? name with
  | some v => return v
  | none =>
    diagnose (.undeclaredVariable name)
    return .undefined

/-- Binds a name where the current statement declares names. -/
def declare (name : String) (value : Value) : Run Unit :=
  update fun m => { m with scope := m.scope.declare name value }

/-- Changes a variable. A name that is not declared is reported. -/
def assign (name : String) (value : Value) : Run Unit := do
  match (← read (·.scope)).assign? name value with
  | some scope => update fun m => { m with scope := scope }
  | none => diagnose (.undeclaredAssignment name)

/-- Changes a variable by an operator, from its value as it is now. A name that is not declared is
reported. -/
def store (name : String) (op : AssignOp) (value : Value) : Run Unit := do
  match op with
  | .assign => assign name value
  | _ =>
    match (← read (·.scope)).get? name with
    | some current => assign name (op.apply current value)
    | none => diagnose (.undeclaredAssignment name)

/-- Does an action behind another frame and in another context, and goes back to the old ones
however it ends. The result is the value or the interrupt of the action. -/
def inside {α : Type} (own : Option Frame) (here : Nat) (action : Run α) :
    Run (Except Interrupt α) := do
  let old ← read (·.scope)
  update (·.behind own here)
  let r ← attempt action
  update (·.behind old.own old.here)
  return r

/-- Frame and context are the old ones again, however the action ends; what it has changed in the
contexts stays. -/
theorem on_inside {α : Type} (own : Option Frame) (here : Nat) (x : Run α) (m : Machine) :
    (inside own here x).on m =
      (x.on (m.behind own here)).map fun (r, n) => (.ok r, n.behind m.scope.own m.scope.here) := by
  simp only [inside, on_bind, on_read, on_update, on_attempt]
  cases x.on (m.behind own here) with
  | none => rfl
  | some p => rfl

end Run

end Linework
