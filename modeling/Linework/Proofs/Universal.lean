import Linework.Proofs.Laws

/-!
# Laws of all actions

What a machine does is made of few changes, and of calls. A law that allows those, and keeps its
condition when a function is called, is obeyed by all evaluating and calling, whatever a host
function may ask for; and that stays on its line. A universal law is one that has no condition and
does not mind interrupts or which functions there are.
-/

namespace Linework

/-- Whether a request registers a function. -/
def HostRequest.registers : HostRequest → Bool
  | .adopt _ _ _ | .define _ _ => true
  | _ => false

/-- Whether the work of a host function registers no functions. -/
def HostProgram.IsModest : HostProgram → Prop
  | .done _ | .hang => True
  | .ask request next => request.registers = false ∧ ∀ reply, (next reply).IsModest
  | .evaluate _ _ next | .call _ _ _ next => ∀ r, (next r).IsModest
  | .offer _ _ _ _ _ => False

/-- Whether a function, if the host provides it, registers no functions. -/
def Function.IsModest (f : Function) : Prop :=
  ∀ program, f.body = .host program → ∀ root arguments, (program root arguments).IsModest

/-- No tool registers a function. -/
lemma Host.Tool.isModest (tool : Tool) (name : String) (number : Nat) :
    (tool.toFunction name number).IsModest := by
  have answered (r : Except Interrupt Value) : (Host.answer r).IsModest := by
    cases r <;> trivial
  rintro _ ⟨⟩ root arguments
  cases tool with
  | canvas => exact ⟨rfl, fun _ => ⟨rfl, fun _ => ⟨rfl, fun _ => trivial⟩⟩⟩
  | area =>
    rw [program, areaOf.eq_def]
    split
    · exact ⟨rfl, fun _ => ⟨rfl, fun _ => trivial⟩⟩
    · trivial
  | global | setGlobal => exact ⟨rfl, fun _ => trivial⟩
  | touch => exact ⟨rfl, fun _ => ⟨rfl, fun _ => trivial⟩⟩
  | invoke | eval => exact answered
  | count => trivial

/-- A law that does not mind which contexts there are. -/
def Law.Open (law : Law) : Prop :=
  ∀ m (contexts : Forest), law.step m { m with scope.contexts := contexts }

/-- A law that allows each change that a run is made of, and a call whenever it allows what the body
does. -/
structure Law.Lax (law : Law) (limits : Limits) : Prop where
  /-- Only the scope, the budget and the log may matter. -/
  other {m n : Machine} (scope : n.scope = m.scope) (budget : n.budget = m.budget)
    (log : n.log = m.log) : law.step m n
  values {m : Machine} {s : Scope} (same : s.shape = m.scope.shape) :
    law.step m { m with scope := s }
  contexts {m : Machine} {contexts : Forest} (grown : contexts.Extends m.scope.contexts) :
    law.step m { m with scope.contexts := contexts }
  log (m : Machine) (e : Event) (harmless : ∀ line limit, e ≠ .cancelling line (.stepLimit limit)) :
    law.step m { m with log := m.log.push e }
  grant {m : Machine} (free : Budget.refusal? limits m.watch
      { m.budget with granted := m.budget.granted + 1 } = none) :
    law.step m { m with budget.granted := m.budget.granted + 1 }
  refuse {m : Machine} {reason : Cancellation} (h : Budget.refusal? limits m.watch
      { m.budget with granted := m.budget.granted + 1 } = some reason) :
    law.step m { m with
      budget.refused := m.budget.refused + 1
      log := m.log.push (.cancelling m.line reason) }
  call {m n : Machine} {frame : Frame} (plain : frame.functions = [])
    (body : law.step (m.enter frame) n) : law.step m (m.leave n)
  inside {m n : Machine} {here : Nat} (work : law.step (m.behind none here) n) :
    law.step m (n.behind m.scope.own m.scope.here)

/-- Whether a law is lax depends on its steps only. -/
lemma Law.Lax.congr {law law' : Law} {limits : Limits} (lax : law.Lax limits)
    (same : law'.step = law.step) : law'.Lax limits := by
  obtain ⟨_, _, _, _, _, _⟩ := law
  obtain ⟨_, _, _, _, _, _⟩ := law'
  cases same
  exact ⟨lax.other, lax.values, lax.contexts, lax.log, lax.grant, lax.refuse, lax.call, lax.inside⟩

/-- Calls that obey a law and stay on their line. -/
def Invoke.Lawful (law : Law) (invoke : Invoke) : Prop :=
  ∀ line name arguments, Obeys (law.onLine line) (invoke name arguments)

/-- A lax law whose condition goes on to hold in a called function, and which does not mind the
errors that may come out of there. What it says about host functions is left open. -/
structure Law.Regular (law : Law) (limits : Limits) : Prop extends law.Lax limits where
  enters {m : Machine} {frame : Frame} (holds : law.holds m) (plain : frame.functions = []) :
    law.holds (m.enter frame)
  cancelled (line : Nat) (reason : Cancellation) : law.ends (.abort (.cancelled line reason))
  /-- A loop word that leaves the body of a function is an error. -/
  strays {m : Machine} {name : String} {f : Function} {b : Block} (holds : law.holds m)
    (found : m.scope.function? name = some f) (body : f.body = .script b) {word : LoopWord}
    {line : Nat} (stray : (word, line) ∈ Linework.strays b) :
    law.ends (.abort (.strayLoopWord word line))
  exits {word : LoopWord} {line : Nat} (h : law.ends (.exit word line)) :
    law.ends (.abort (.strayLoopWord word line))
  hosts {m : Machine} {name : String} {f : Function} {program : Nat → List Value → HostProgram}
    (holds : law.holds m) (found : m.scope.function? name = some f)
    (body : f.body = .host program) {fuel : Nat} (calls : (callByName limits fuel).Lawful law)
    (line : Nat) (arguments : List Value) :
    Obeys (law.onLine line) (f.call limits (callByName limits fuel) fuel arguments)

/-- A lax law for all machines, all interrupts and all contexts. -/
structure Law.Universal (law : Law) (limits : Limits) : Prop extends law.Lax limits where
  holds (m : Machine) : law.holds m
  ends (i : Interrupt) : law.ends i
  opens : law.Open

/-- The law for what is not interrupted. -/
def Law.flawless (law : Law) : Law where
  holds := law.holds
  step := law.step
  ends _ := False
  refl := law.refl
  trans := law.trans
  keeps := law.keeps

/-- The law for what may also hand back a value. -/
def Law.yielding (law : Law) : Law where
  holds := law.holds
  step := law.step
  ends i := law.ends i ∨ ∃ value line, i = .yield value line
  refl := law.refl
  trans := law.trans
  keeps := law.keeps

/-- What ends with fewer interrupts. -/
lemma Obeys.yielding {law : Law} {α : Type} {x : Run α} {line : Nat}
    (h : Obeys (law.onLine line) x) : Obeys (law.yielding.onLine line) x :=
  h.mono id (fun _ step => step) .inl

section

variable {law : Law} {limits : Limits} {invoke : Invoke} {line fuel : Nat}

namespace Law.Lax

variable (lax : law.Lax limits)

include lax

/-- The current line does not matter. -/
lemma lineFree : law.LineFree := fun _ _ => lax.other rfl rfl rfl

/-- A diagnostic is allowed. -/
lemma diagnose (cause : Diagnostic.Cause) : Obeys (law.onLine line) (Run.diagnose cause) := by
  intro m r n _ e
  cases e
  exact ⟨⟨law.trans (lax.log m (.diagnosed _) nofun) (lax.other rfl rfl rfl), rfl⟩, nofun⟩

/-- A random number may be drawn. -/
lemma draw : Obeys (law.onLine line) Run.draw :=
  .draw fun _ _ => ⟨lax.other rfl rfl rfl, rfl⟩

/-- A line may be written, or lost. -/
lemma print (text : String) : Obeys (law.onLine line) (Run.print text) := by
  refine .read fun m _ => ?_
  split
  · exact .update fun n _ => ⟨lax.log n .outputLost nofun, rfl⟩
  · exact .update fun n _ => ⟨lax.other rfl rfl rfl, rfl⟩

/-- A declaration is allowed. -/
lemma declare (name : String) (value : Value) :
    Obeys (law.onLine line) (Run.declare name value) :=
  .update fun m _ => ⟨lax.values (m.scope.shape_declare name value), rfl⟩

/-- An assignment is allowed. -/
lemma assign (name : String) (value : Value) :
    Obeys (law.onLine line) (Run.assign name value) :=
  .assign (fun _ _ _ changed => ⟨lax.values (Scope.shape_assign? changed), rfl⟩) (lax.diagnose _)

/-- An assignment with an operator is allowed. -/
lemma store (name : String) (op : AssignOp) (value : Value) :
    Obeys (law.onLine line) (Run.store name op value) :=
  .store (lax.assign name) (lax.diagnose _) op value

/-- What expressions are made of is allowed if calls are. -/
lemma admits (calls : invoke.Lawful law) (refs callees : List String) :
    (law.onLine line).Admits invoke refs callees where
  draw := lax.draw
  lookup _ _ := .lookup (lax.diagnose _)
  call name _ arguments := calls line name arguments

/-- Evaluating a formula is allowed if calls are. -/
lemma formula_on (calls : invoke.Lawful law) (f : Formula) :
    Obeys (law.onLine line) (f.eval invoke) :=
  obeys_formula (lax.admits calls _ _) fun _ _ => lax.diagnose _

/-- Whatever a host function asks for is allowed, unless it is to register a function that
matters. -/
lemma answer (request : HostRequest) (modest : request.registers = false ∨ law.Open) :
    Obeys (law.onLine line) request.answer := by
  cases request with
  | print text => exact lax.print text
  | clock => exact .tellTime fun _ _ => ⟨lax.other rfl rfl rfl, rfl⟩
  | get | rootOf | find | remembered => exact .reads _
  | declare context name value =>
    refine .update fun m _ => ⟨lax.contexts (.of_shape ?_), rfl⟩
    exact Forest.shape_declare _ context name value
  | set context name value =>
    intro m r n _ e
    cases e
    exact ⟨⟨lax.contexts (.of_shape (Forest.shape_set _ context name value)), rfl⟩, nofun⟩
  | make parent =>
    intro m r n _ e
    cases e
    exact ⟨⟨lax.contexts ⟨[_], rfl, List.forall_mem_singleton.mpr rfl⟩, rfl⟩, nofun⟩
  | adopt source name target =>
    -- here a function is put into a context, which a law need not allow
    have opens := modest.resolve_left nofun
    refine .read fun m _ => ?_
    split
    · exact .update fun m _ => ⟨opens m _, rfl⟩
    · exact .pure _
  | define context definition =>
    have opens := modest.resolve_left nofun
    exact .update fun m _ => ⟨opens m _, rfl⟩
  | identify =>
    exact .read fun m _ => .bind (.update fun _ _ => ⟨lax.other rfl rfl rfl, rfl⟩) fun _ => .pure _
  | remember key value => exact .update fun _ _ => ⟨lax.other rfl rfl rfl, rfl⟩

/-- The work of a host function is allowed, unless it registers functions that matter, and never
interrupted: what interrupts its requests is an answer to them. -/
lemma perform_on (calls : invoke.Lawful law)
    (everywhere : ∀ {m here}, law.holds m → law.holds (m.behind none here)) (p : HostProgram)
    (modest : p.IsModest ∨ law.Open) : Obeys (law.flawless.onLine line) (p.perform invoke) := by
  have flawless : law.flawless.Lax limits := lax.congr rfl
  have inside {x : Run Value} {context : Nat} {next : Except Interrupt Value → HostProgram}
      (h : Obeys (law.onLine line) x)
      (ih : ∀ r, Obeys (law.flawless.onLine line) ((next r).perform invoke)) :
      Obeys (law.flawless.onLine line)
        (Run.inside none context x >>= fun r => (next r).perform invoke) :=
    obeys_inside (law.onLine line) (fun holds => ⟨everywhere holds.1, holds.2⟩)
      (fun _ work => ⟨lax.inside work.1, work.2⟩) h fun r _ => ih r
  induction p with
  | done value => exact .pure value
  | hang => exact .outOfFuel
  | ask request next ih =>
    refine .bind (flawless.answer request (modest.imp_left (·.1))) fun reply => ih reply ?_
    exact modest.imp_left (·.2 reply)
  | evaluate context source next ih =>
    exact inside (lax.formula_on calls _) fun r => ih r (modest.imp_left (· r))
  | call context name arguments next ih =>
    exact inside (calls line name arguments) fun r => ih r (modest.imp_left (· r))
  | offer context name params program next _ ih =>
    have opens := modest.resolve_left id
    exact .bind (.update fun m _ => ⟨opens m _, rfl⟩) fun _ => ih (.inr opens)

/-- A call of a host function is under a law if all that is done for it is under another one, which
allows no more. -/
lemma host_on (outer : Law) (calls : invoke.Lawful law)
    (everywhere : ∀ {m here}, law.holds m → law.holds (m.behind none here))
    (enter : ∀ {m here}, outer.holds m → law.holds (m.behind none here))
    (leave : ∀ {m n here}, law.step (m.behind none here) n →
      outer.step m (n.behind m.scope.own m.scope.here))
    {f : Function} {program : Nat → List Value → HostProgram} (body : f.body = .host program)
    (modest : (∀ root arguments, (program root arguments).IsModest) ∨ law.Open)
    (arguments : List Value) :
    Obeys (outer.onLine line) (f.call limits invoke fuel arguments) := by
  rw [Function.call, body]
  refine .read fun m _ => ?_
  refine obeys_inside (law.flawless.onLine line) (fun holds => ⟨enter holds.1, holds.2⟩)
    (fun _ work => ⟨leave work.1, work.2⟩) ?_ fun r flawless => ?_
  · exact lax.perform_on calls everywhere _ (modest.imp_left fun h => h _ arguments)
  · exact .ofExcept fun i error => (flawless i error).elim

end Law.Lax

/-- A universal law is regular. -/
lemma Law.Universal.regular (u : law.Universal limits) : law.Regular limits where
  toLax := u.toLax
  enters _ _ := u.holds _
  cancelled _ _ := u.ends _
  strays _ _ _ _ _ _ := u.ends _
  exits _ := u.ends _
  hosts _ _ body _ calls _ arguments :=
    u.host_on law calls (fun _ => u.holds _) (fun _ => u.holds _) u.inside body (.inr u.opens)
      arguments

namespace Law.Regular

variable (regular : law.Regular limits)

include regular

/-- A step is let through or refused. -/
lemma spend : Obeys (law.onLine line) (Run.spend limits) := by
  intro m r n _ e
  rw [Run.on_spend] at e
  split at e
  · next free =>
    cases e
    exact ⟨⟨regular.grant free, rfl⟩, nofun⟩
  · next reason refusal =>
    cases e
    refine ⟨⟨regular.refuse refusal, rfl⟩, ?_⟩
    rintro _ ⟨⟩
    exact regular.cancelled _ _

/-- What statements are made of is allowed if calls are. -/
lemma allows (calls : invoke.Lawful law) (s : Statement) : law.yielding.Allows limits invoke s where
  spend := regular.spend.yielding
  formula f _ := (regular.formula_on calls f).yielding
  declare name _ value := (regular.declare name value).yielding
  store name _ op value := (regular.store name op value).yielding
  yields value := .inr ⟨value, s.line, rfl⟩

/-- A block may also hand back a value, or end with one of its stray loop words. -/
lemma block_of (calls : invoke.Lawful law) (b : Block) :
    Obeys (law.yielding.leaking (Linework.strays b)) (executeBlock limits invoke fuel b) := by
  have free : law.yielding.LineFree := regular.lineFree
  exact obeys_block_leaking free b fun s _ => regular.allows calls s

/-- A call that is too deep is refused on the line of the caller. -/
lemma refused_on :
    Obeys (law.onLine line) (Run.stop (.callDepth limits.maxCallDepth) : Run Value) := by
  intro m r n _ e
  cases e
  refine ⟨⟨regular.log _ (.cancelling _ (.callDepth _)) nofun, rfl⟩, ?_⟩
  rintro _ ⟨⟩
  exact regular.cancelled _ _

/-- A call of a script function in scope is allowed if the calls of its body are. -/
lemma script_on (calls : invoke.Lawful law) {m : Machine} (holds : law.holds m) {name : String}
    {f : Function} (found : m.scope.function? name = some f) {b : Block}
    (body : f.body = .script b) (arguments : List Value) :
    Obeys (law.onLine line) (f.call limits invoke fuel arguments) := by
  rw [Function.call, body]
  refine .bind (.update fun n _ => ⟨regular.log n (.calling _ _) nofun, rfl⟩) fun _ => ?_
  have plain := f.functions_frame arguments
  -- the loop words that the body lets out are errors of the run from here on
  refine obeys_runBody (law.yielding.leaking (Linework.strays b))
    (fun holds => regular.enters holds.1 plain) (fun _ step => ⟨regular.call plain step, rfl⟩)
    ?_ ?_ regular.refused_on (regular.block_of calls b)
  · rintro error ((ends | ⟨_, _, ⟨⟩⟩) | ⟨_, _, _, ⟨⟩⟩)
    exact ends
  · rintro word line ((ends | ⟨_, _, ⟨⟩⟩) | ⟨_, _, stray, ⟨⟩⟩)
    · exact regular.exits ends
    · exact regular.strays holds found body stray

/-- All calls are allowed. -/
lemma callByName : (callByName limits fuel).Lawful law := by
  induction fuel with
  | zero => exact fun _ _ _ => .outOfFuel
  | succ fuel ih =>
    intro line name arguments
    refine .read fun m holds => ?_
    split
    · next f found =>
      cases body : f.body with
      | host program => exact regular.hosts holds.1 found body ih line arguments
      | script b => exact regular.script_on ih holds.1 found body arguments
    · exact (regular.diagnose _).bind fun _ => .pure _

end Law.Regular

namespace Law.Universal

variable (u : law.Universal limits)

include u

/-- Whatever ends an action, a universal law does not mind. -/
lemma of_regular {α : Type} {x : Run α} {words : List (LoopWord × Nat)}
    (h : Obeys (law.yielding.leaking words) x) : Obeys law x :=
  h.mono id (fun _ step => step) fun _ => u.ends _

/-- Blocks are under the law. -/
lemma block_of (calls : invoke.Lawful law) (b : Block) :
    Obeys law (executeBlock limits invoke fuel b) :=
  u.of_regular (u.regular.block_of calls b)

end Law.Universal

end

end Linework
