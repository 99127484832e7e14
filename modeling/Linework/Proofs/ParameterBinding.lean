import Linework.Proofs.Mirroring

/-!
# Parameters and arguments

Parameters are bound to arguments by position. A name that stands several times among the parameters
gets the last of its arguments, a missing argument is undefined, and a rest parameter takes an
argument without binding it. A call never notices how many arguments it has, except in the log.
-/

namespace Linework

/-- The last place of a name among parameters. -/
def LastPlace (params : List String) (name : String) (i : Nat) : Prop :=
  params[i]? = some name ∧ name ∉ params.drop (i + 1)

/-- The first place is the last one of a name that does not stand further on. -/
lemma lastPlace_zero {param name : String} {params : List String} :
    LastPlace (param :: params) name 0 ↔ param = name ∧ name ∉ params := by
  simp [LastPlace]

/-- A later place is counted from the second parameter on. -/
lemma lastPlace_succ {param name : String} {params : List String} {i : Nat} :
    LastPlace (param :: params) name (i + 1) ↔ LastPlace params name i := by
  simp [LastPlace]

/-- A name with a last place stands among the parameters. -/
lemma LastPlace.mem {params : List String} {name : String} {i : Nat} (h : LastPlace params name i) :
    name ∈ params :=
  List.mem_of_getElem? h.1

/-- A name that stands among parameters has a last place there. -/
lemma exists_lastPlace {params : List String} {name : String} (mem : name ∈ params) :
    ∃ i, LastPlace params name i := by
  induction params with
  | nil => cases mem
  | cons param params ih =>
    by_cases later : name ∈ params
    · obtain ⟨i, last⟩ := ih later
      exact ⟨i + 1, lastPlace_succ.mpr last⟩
    · obtain rfl | there := List.mem_cons.mp mem
      · exact ⟨0, lastPlace_zero.mpr ⟨rfl, later⟩⟩
      · exact absurd there later

/-- Arguments cut off or filled up with `undefined` to a given number. -/
def fitted (n : Nat) (arguments : List Value) : List Value :=
  (arguments.take n).rightpad n .undefined

/-- The first of the fitted arguments, and the others. -/
lemma fitted_succ (n : Nat) (arguments : List Value) :
    fitted (n + 1) arguments = arguments.headD .undefined :: fitted n arguments.tail := by
  cases arguments with
  | nil => simp [fitted, List.rightpad, List.replicate_succ]
  | cons v vs => simp [fitted, List.rightpad]

/-- Arguments are fitted to the given number. -/
lemma length_fitted (n : Nat) (arguments : List Value) : (fitted n arguments).length = n := by
  simp only [fitted, List.rightpad, List.length_append, List.length_take, List.length_replicate]
  omega

section

variable {frame : Frame} {params : List String} {arguments : List Value} {name : String}

/-- The frame after the first parameter is bound. -/
lemma get?_bindFirst (frame : Frame) (param : String) (v : Value) (name : String) :
    (if isRest param then frame else frame.declare param v).get? name =
      if isRest param = false ∧ name = param then some v else frame.get? name := by
  cases rest : isRest param with
  | true => simp
  | false => simp [Frame.get?_declare]

/-- What is no parameter, or only a rest parameter, keeps what it is bound to. -/
lemma get?_bindParams_of_free (free : isRest name = true ∨ name ∉ params) :
    (bindParams frame params arguments).get? name = frame.get? name := by
  induction params generalizing frame arguments with
  | nil => rfl
  | cons param params ih =>
    have later : isRest name = true ∨ name ∉ params :=
      free.imp_right fun none mem => none (List.mem_cons_of_mem _ mem)
    have first : ¬ (isRest param = false ∧ name = param) := by
      rintro ⟨bound, rfl⟩
      obtain rest | none := free
      · rw [bound] at rest
        cases rest
      · exact none List.mem_cons_self
    rw [bindParams, ih later, get?_bindFirst, if_neg first]

/-- A parameter is bound to the argument at its last place. -/
lemma get?_bindParams_of_last (bound : isRest name = false) {i : Nat}
    (last : LastPlace params name i) :
    (bindParams frame params arguments).get? name = some (arguments.getD i .undefined) := by
  induction params generalizing frame arguments i with
  | nil => cases last.mem
  | cons param params ih =>
    rw [bindParams]
    cases i with
    | zero =>
      obtain ⟨rfl, none⟩ := lastPlace_zero.mp last
      rw [get?_bindParams_of_free (.inr none), get?_bindFirst, if_pos ⟨bound, rfl⟩]
      cases arguments <;> rfl
    | succ i =>
      rw [ih (lastPlace_succ.mp last)]
      cases arguments <;> rfl

/-- Only as many arguments count as there are parameters, and missing ones are undefined. -/
lemma bindParams_fitted (frame : Frame) (params : List String) (arguments : List Value) :
    bindParams frame params (fitted params.length arguments) =
      bindParams frame params arguments := by
  induction params generalizing frame arguments with
  | nil => rfl
  | cons param params ih =>
    rw [List.length_cons, fitted_succ, bindParams, bindParams, List.headD_cons, List.tail_cons, ih]

end

/-- What the frame of a function binds: its parameters up to the rest parameters, each to the
argument at its last place. -/
lemma Function.get?_frame (f : Function) (arguments : List Value) (name : String) (v : Value) :
    (f.frame arguments).get? name = some v ↔
      isRest name = false ∧ ∃ i, LastPlace f.params name i ∧ v = arguments.getD i .undefined := by
  rw [Function.frame]
  constructor
  · intro found
    by_cases free : isRest name = true ∨ name ∉ f.params
    · rw [get?_bindParams_of_free free] at found
      cases found
    · obtain ⟨bound, mem⟩ : isRest name = false ∧ name ∈ f.params := by simpa using free
      obtain ⟨i, last⟩ := exists_lastPlace mem
      rw [get?_bindParams_of_last bound last] at found
      exact ⟨bound, i, last, (Option.some.inj found).symm⟩
  · rintro ⟨bound, i, last, rfl⟩
    exact get?_bindParams_of_last bound last

/-! ### The log is never read -/

/-- The machine with another log. -/
def Machine.withLog (m : Machine) (log : Array Event) : Machine := { m with log := log }

/-- Machines that differ at one place of the log at most. -/
def Machine.Edited (i : Nat) (e : Event) (m m' : Machine) : Prop :=
  i < m.log.size ∧ m' = m.withLog (m.log.setIfInBounds i e)

namespace Machine.Edited

variable {i : Nat} {e : Event} {m m' n n' : Machine}

/-- A change that has nothing to do with the log. -/
lemma change (f : Machine → Machine) (apart : ∀ m log, f (m.withLog log) = (f m).withLog log)
    (h : m.Edited i e m') : (f m).Edited i e (f m') := by
  obtain ⟨inside, rfl⟩ := h
  have same : f m = (f m).withLog m.log := apart m m.log
  have kept : (f m).log = m.log := by
    rw [same]
    rfl
  rw [apart]
  exact ⟨kept ▸ inside, by rw [kept]⟩

/-- One more event on both sides. -/
lemma push (h : m.Edited i e m') (event : Event) :
    Machine.Edited i e { m with log := m.log.push event }
      { m' with log := m'.log.push event } := by
  obtain ⟨inside, rfl⟩ := h
  have later : (m.log.push event).setIfInBounds i e = (m.log.setIfInBounds i e).push event := by
    apply Array.ext'
    simp [List.set_append_left _ _ inside]
  refine ⟨?_, by simp only [Machine.withLog, later]⟩
  rw [Array.size_push]
  exact Nat.lt_succ_of_lt inside

/-- Actions of a script mirror themselves. -/
lemma simulates (i : Nat) (e : Event) : Simulates id (Machine.Edited i e) where
  budget h := by rw [h.2]; rfl
  watch h := by rw [h.2]; rfl
  random h := by rw [h.2]; rfl
  clock h := by rw [h.2]; rfl
  broken h := by rw [h.2]; rfl
  setLine line h := h.change (fun m => { m with line := line }) fun _ _ => rfl
  setBudget budget h := h.change (fun m => { m with budget := budget }) fun _ _ => rfl
  setRandom random h := h.change (fun m => { m with random := random }) fun _ _ => rfl
  setClock clock h := h.change (fun m => { m with clock := clock }) fun _ _ => rfl
  log event h := by
    rw [Event.relabel_id]
    exact h.push event
  print text h := h.change
    (fun m => { m with console.lines := m.console.lines.push text }) fun _ _ => rfl
  report d h := h.change
    (fun m => { m with diagnostics := m.diagnostics.push d }) fun _ _ => rfl

/-- A call ends on both sides. -/
lemma leave (h : m.Edited i e m') (h' : n.Edited i e n') :
    (m.leave n).Edited i e (m'.leave n') := by
  obtain ⟨-, rfl⟩ := h
  exact h'.change m.leave fun _ _ => rfl

end Machine.Edited

/-- From machines that differ in the log at most an action ends alike. -/
abbrev Blind (i : Nat) (e : Event) (line? : Option Nat) {α : Type} (x x' : Run α) : Prop :=
  Mirrors id (OnLine id (Machine.Edited i e) line?) x x'

namespace Blind

variable {i : Nat} {e : Event} {line? : Option Nat} {line : Nat} {α β : Type}

/-- What is read is not the log. -/
lemma read {g : Machine → α} {f : α → Run β} (apart : ∀ m log, g (m.withLog log) = g m)
    (h : ∀ a, Blind i e line? (f a) (f a)) :
    Blind i e line? (Run.read g >>= f) (Run.read g >>= f) :=
  Mirrors.read_same (fun same => by rw [same.1.2, apart]) h

/-- What is changed is neither the log nor the line. -/
lemma update {f : Machine → Machine} (apart : ∀ m log, f (m.withLog log) = (f m).withLog log)
    (line : ∀ m, (f m).line = m.line) :
    Blind i e line? (Run.update f) (Run.update f) :=
  Simulates.update (fun _ _ same => same.change f apart) line line

/-- Looking up a variable. -/
lemma lookup (name : String) : Blind i e (some line) (Run.lookup name) (Run.lookup name) := by
  refine read (fun _ _ => rfl) fun scope => ?_
  split
  · exact .pure _
  · exact ((Machine.Edited.simulates i e).diagnose _).bind fun _ => .pure _

/-- Changing a variable. -/
lemma assign (name : String) (v : Value) :
    Blind i e (some line) (Run.assign name v) (Run.assign name v) := by
  refine read (fun _ _ => rfl) fun scope => ?_
  split
  · exact update (fun _ _ => rfl) fun _ => rfl
  · exact (Machine.Edited.simulates i e).diagnose _

/-- Changing a variable by an operator. -/
lemma store (name : String) (op : AssignOp) (v : Value) :
    Blind i e (some line) (Run.store name op v) (Run.store name op v) := by
  unfold Run.store
  split
  · exact assign name v
  · refine read (fun _ _ => rfl) fun scope => ?_
    split
    · exact assign name _
    · exact (Machine.Edited.simulates i e).diagnose _

/-- An action behind another frame and in another context. -/
lemma inside {x : Run α} (own : Option Frame) (here : Nat) (h : Blind i e line? x x) :
    Blind i e line? (Run.inside own here x) (Run.inside own here x) := by
  intro m m' same
  rw [Run.on_inside, Run.on_inside]
  have there : OnLine id (Machine.Edited i e) line? (m.behind own here) (m'.behind own here) :=
    ⟨same.1.change (·.behind own here) fun _ _ => rfl, same.2⟩
  obtain ⟨e, e'⟩ | ⟨r, n, n', e, e', same'⟩ := h.cases there
  · rw [e, e']
    exact .none
  · rw [e, e', Interrupt.mapError_relabel_id, same.1.2]
    exact .some ⟨rfl, same'.1.change (·.behind m.scope.own m.scope.here) fun _ _ => rfl, same'.2⟩

/-- Handing on a value or an interrupt. -/
lemma ofExcept (r : Except Interrupt α) :
    Blind i e line? (Run.ofExcept r) (Run.ofExcept r) := by
  cases r with
  | ok a => exact .pure a
  | error interrupt =>
    intro m m' same
    exact .some ⟨(Interrupt.mapError_relabel_id (α := α) (.error interrupt)).symm, same⟩

/-- Answering a request of the host, which is never one for the log. -/
lemma answer (request : HostRequest) :
    Blind i e line? request.answer request.answer := by
  have simulates := Machine.Edited.simulates i e
  cases request with
  | print text => exact simulates.prints text
  | clock => exact simulates.tellTime
  | get | rootOf | find | remembered =>
    exact Blind.read (f := Pure.pure) (fun _ _ => rfl) .pure
  | declare | define | remember => exact update (fun _ _ => rfl) fun _ => rfl
  | set | make | identify =>
    exact read (fun _ _ => rfl) fun _ =>
      .bind (update (fun _ _ => rfl) fun _ => rfl) fun _ => .pure _
  | adopt source name target =>
    refine read (fun _ _ => rfl) fun contexts => ?_
    split
    · exact update (fun _ _ => rfl) fun _ => rfl
    · exact .pure ()

end Blind

section

variable {i : Nat} {e : Event} {limits : Limits} {invoke : Invoke} {fuel : Nat}

/-- Calls that do not look at the log. -/
def Invoke.Blind (i : Nat) (e : Event) (invoke : Invoke) : Prop :=
  ∀ line name arguments,
    Linework.Blind i e (some line) (invoke name arguments) (invoke name arguments)

/-- Evaluating a formula. -/
lemma blind_formula (calls : invoke.Blind i e) (line : Nat) (f : Formula) :
    Blind i e (some line) (f.eval invoke) (f.eval invoke) := by
  have related : Relates (fun _ => Blind i e (some line)) id invoke invoke f.refs f.callees :=
    { pure := .pure
      bind := .bind
      draw := (Machine.Edited.simulates i e).draw
      lookup := fun name _ => .lookup name
      call := fun name _ => calls line name }
  exact related.formula_same fun _ _ => (Machine.Edited.simulates i e).diagnose _

/-- Executing a block. -/
lemma blind_block (calls : invoke.Blind i e) (b : Block) :
    Blind i e none (executeBlock limits invoke fuel b) (executeBlock limits invoke fuel b) := by
  have simulates := Machine.Edited.simulates i e
  have carries : (Pairing.same limits invoke fuel).Carries _ := simulates.carries rfl
  refine carries.block_same rfl rfl b fun t _ => ?_
  exact
    { spend := simulates.spend limits
      formula := fun f _ => by
        have unchanged : f.rename (Pairing.same limits invoke fuel).names = f := f.rename_id
        rw [unchanged]
        exact blind_formula calls t.line f
      declare := fun name _ v => Blind.update (fun _ _ => rfl) fun _ => rfl
      store := fun name _ => Blind.store name
      yields := fun v => .throw (.yield v t.line)
      loop := fun _ test test' words body body' tests bodies =>
        carries.rounds (Simulates.loops rfl) words test test' body body' (simulates.spend limits)
          tests bodies }

/-- The work of a host function, by induction on its requests. -/
lemma blind_perform (calls : invoke.Blind i e) (line : Nat) (p : HostProgram) :
    Blind i e (some line) (p.perform invoke) (p.perform invoke) := by
  induction p with
  | done value => exact .pure value
  | hang => exact .outOfFuel
  | ask request next ih => exact (Blind.answer request).bind ih
  | evaluate context source next ih =>
    exact (Blind.inside none context (blind_formula calls line _)).bind ih
  | call context name arguments next ih =>
    exact (Blind.inside none context (calls line name arguments)).bind ih
  | offer context name params program next _ ih =>
    exact .bind (Blind.update (fun _ _ => rfl) fun _ => rfl) fun _ => ih

/-- Running the body of a script function. -/
lemma blind_runBody (calls : invoke.Blind i e) (line : Nat) (frame : Frame) (body : Block) :
    Blind i e (some line) (runBody limits invoke fuel frame body)
      (runBody limits invoke fuel frame body) :=
  (Machine.Edited.simulates i e).runBody
    (fun same => same.change (·.enter frame) fun _ _ => rfl) (fun same same' => same.leave same')
    (blind_block calls body)

end

/-- No call looks at the log. -/
lemma blind_callByName (i : Nat) (e : Event) (limits : Limits) (fuel : Nat) :
    (callByName limits fuel).Blind i e := by
  induction fuel with
  | zero => exact fun _ _ _ => .outOfFuel
  | succ fuel ih =>
    intro line name arguments
    refine Blind.read (fun _ _ => rfl) fun scope => ?_
    split
    · next f found =>
      rw [Function.call]
      split
      · refine Blind.read (fun _ _ => rfl) fun root => ?_
        exact (Blind.inside none root (blind_perform ih line _)).bind Blind.ofExcept
      · exact ((Machine.Edited.simulates i e).record (.calling _ _)).bind fun _ =>
          blind_runBody ih line _ _
    · exact ((Machine.Edited.simulates i e).diagnose _).bind fun _ => .pure _

/-- The body of a function does not notice what was recorded before it: with another event,
everything is the same but the event itself. -/
lemma on_record_runBody (limits : Limits) (fuel : Nat) (frame : Frame) (body : Block)
    (e e' : Event) (m : Machine) :
    (Run.record e' >>= fun _ => runBody limits (callByName limits fuel) fuel frame body).on m =
      ((Run.record e >>= fun _ => runBody limits (callByName limits fuel) fuel frame body).on m).map
        fun (r, n) => (r, { n with log := n.log.setIfInBounds m.log.size e' }) := by
  let start : Machine := { m with log := m.log.push e }
  let start' : Machine := { m with log := m.log.push e' }
  have edited : start.Edited m.log.size e' start' := by
    have replaced : (m.log.push e).setIfInBounds m.log.size e' = m.log.push e' := by
      apply Array.ext'
      simp [List.set_append_right]
    refine ⟨?_, ?_⟩
    · simp only [start, Array.size_push, Nat.lt_succ_self]
    · simp only [start, start', Machine.withLog, replaced]
  have same : OnLine id (Machine.Edited m.log.size e') (some m.line) start start' := by
    refine ⟨edited, ?_⟩
    rintro _ ⟨⟩
    exact ⟨rfl, rfl⟩
  show (runBody limits (callByName limits fuel) fuel frame body).on start' =
    ((runBody limits (callByName limits fuel) fuel frame body).on start).map _
  -- no later action reads the log, so the edited entry is carried to the end
  obtain ⟨ends, ends'⟩ | ⟨r, n, n', ends, ends', same⟩ := Mirrors.cases
    (blind_runBody (blind_callByName m.log.size e' limits fuel) m.line frame body) same
  · rw [ends, ends']
    rfl
  · rw [ends, ends', Interrupt.mapError_relabel_id, same.1.2]
    rfl

/-- The body of a function starts in a frame of its own before the root. The frame binds exactly the
parameters that are no rest parameters, each to the argument at its last place or, if that is
missing, to `undefined`. So a call with more or fewer arguments than parameters is the same as one
with exactly as many, up to their number in the log. -/
theorem call_binds_by_position (limits : Limits) (fuel : Nat) (d : Definition)
    (arguments : List Value) (m : Machine) :
    let call (arguments : List Value) :=
      (d.toFunction.call limits (callByName limits fuel) fuel arguments).on m
    let frame := d.toFunction.frame arguments
    let called := { m with log := m.log.push (.calling d.name arguments.length) }
    (∀ name v, frame.get? name = some v ↔
      isRest name = false ∧ ∃ i, LastPlace d.params name i ∧ v = arguments.getD i .undefined) ∧
    frame.functions = [] ∧
    call arguments = (if m.budget.depth < limits.maxCallDepth then
        ((execute limits fuel d.body).on (called.enter frame)).map
          fun (r, n) => ((Interrupt.resolve r).mapError .abort, m.leave n)
      else (Run.stop (.callDepth limits.maxCallDepth)).on called) ∧
    (called.enter frame).scope = ⟨some frame, m.scope.contexts, m.scope.root⟩ ∧
    call (fitted d.params.length arguments) = (call arguments).map fun (r, n) =>
      (r, { n with log := n.log.setIfInBounds m.log.size (.calling d.name d.params.length) }) := by
  refine ⟨d.toFunction.get?_frame arguments, functions_bindParams _ _ _, ?_, rfl, ?_⟩
  · exact on_runBody limits (callByName limits fuel) fuel (d.toFunction.frame arguments) d.body
      { m with log := m.log.push (.calling d.name arguments.length) }
  · have calls (arguments : List Value) :
        d.toFunction.call limits (callByName limits fuel) fuel arguments =
          Run.record (.calling d.name arguments.length) >>= fun _ =>
            runBody limits (callByName limits fuel) fuel (d.toFunction.frame arguments) d.body :=
      rfl
    -- the frames are the same, so only the recorded number of arguments differs
    have same : d.toFunction.frame (fitted d.params.length arguments) =
        d.toFunction.frame arguments := bindParams_fitted _ _ _
    dsimp only
    rw [calls, calls, same, length_fitted]
    exact on_record_runBody limits fuel _ _ _ _ m

example :
    (Function.frame ⟨"f", ["a", "b...", "a", "c"], .script []⟩
      [.null, .undefined, .bool true]).values = [("a", .bool true), ("c", .undefined)] := by
  rfl

end Linework
