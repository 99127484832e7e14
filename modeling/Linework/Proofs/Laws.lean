import Linework.Proofs.Parametricity
import Linework.Proofs.Sight

/-!
# Laws of actions

A law says what an action may do to a machine that meets a condition, and with which interrupts it
may end. Laws pass from the parts of an action to the whole: `obeys_eval` and `obeys_block` say so
for expressions and blocks, with what they mention, and `obeys_runBody` for the call of a script
function, whose body may be under a law of its own.
-/

namespace Linework

/-- What actions may do. The machines of the law are those that meet its condition; they go on to
meet it after every step that is allowed. -/
structure Law where
  holds : Machine → Prop
  step : Machine → Machine → Prop
  ends : Interrupt → Prop
  refl (m : Machine) : step m m
  trans {l m n : Machine} : step l m → step m n → step l n
  keeps {m n : Machine} : holds m → step m n → holds n

/-- A law that does not mind the log, the output, and the supply of random numbers and of the
time. -/
structure Law.Lenient (law : Law) : Prop where
  log (m : Machine) (e : Event) : law.step m { m with log := m.log.push e }
  lines (m : Machine) (lines : Array String) : law.step m { m with console.lines := lines }
  random (m : Machine) (random : Feed Float) : law.step m { m with random := random }
  clock (m : Machine) (clock : Feed (Option Nat)) : law.step m { m with clock := clock }

/-- The action does nothing but what the law allows, however it ends. -/
def Obeys (law : Law) {α : Type} (x : Run α) : Prop :=
  ∀ m r n, law.holds m → x.on m = some (r, n) → law.step m n ∧ ∀ i, r = .error i → law.ends i

/-- A step is never refused for the number of functions running. -/
lemma Budget.refusal?_ne_callDepth {limits : Limits} {watch : Watch} {b : Budget}
    {reason : Cancellation} (h : refusal? limits watch b = some reason) (limit : Nat) :
    reason ≠ .callDepth limit := by
  rw [refusal?] at h
  rintro rfl
  split at h
  · cases h
  · obtain ⟨_, _, e⟩ := Option.map_eq_some_iff.mp h
    cases e

/-- A step is let through only if the counter is within the limit. -/
lemma Budget.steps_le_of_refusal? {limits : Limits} {watch : Watch} {b : Budget} {most : UInt64}
    (limited : limits.maxSteps = some most) (h : refusal? limits watch b = none) :
    b.steps ≤ most := by
  rw [refusal?, limited] at h
  split at h
  · cases h
  · next within =>
    have le : ¬most < b.steps := by simpa using within
    exact UInt64.not_lt.mp le

/-- As long as the counter is right, what is within the limit by the counter is within it. -/
lemma Budget.ticks_le_of_steps_le {b : Budget} {most : UInt64} (few : b.ticks < UInt64.size)
    (h : b.steps ≤ most) : b.ticks ≤ most.toNat := by
  rw [← toNat_steps few]
  exact UInt64.le_iff_toNat_le.mp h

/-- A step that is let through is counted, and the counter is within the limit. -/
lemma Run.eq_of_spend {limits : Limits} {m n : Machine}
    (h : (Run.spend limits).on m = some (.ok (), n)) :
    n = { m with budget.granted := m.budget.granted + 1 } ∧
      ∀ most ∈ limits.maxSteps, n.budget.steps ≤ most := by
  rw [Run.on_spend] at h
  split at h
  · next free =>
    cases h
    exact ⟨rfl, fun most limited => Budget.steps_le_of_refusal? limited free⟩
  · cases h

namespace Obeys

variable {law : Law} {α β : Type}

/-- Nothing happens. -/
lemma pure (a : α) : Obeys law (pure a : Run α) := by
  intro m r n _ e
  cases e
  exact ⟨law.refl m, nofun⟩

/-- An interrupt that the law knows. -/
lemma throw {i : Interrupt} (h : law.ends i) : Obeys law (throw i : Run α) := by
  intro m r n _ e
  cases e
  refine ⟨law.refl m, ?_⟩
  rintro _ ⟨⟩
  exact h

/-- An action that does not end obeys every law. -/
lemma outOfFuel : Obeys law (Run.outOfFuel : Run α) := by
  intro m r n _ e
  cases e

/-- A change that the law allows. -/
lemma update {f : Machine → Machine} (h : ∀ m, law.holds m → law.step m (f m)) :
    Obeys law (Run.update f) := by
  intro m r n holds e
  cases e
  exact ⟨h m holds, nofun⟩

/-- One action after another. -/
lemma bind {x : Run α} {f : α → Run β} (h : Obeys law x) (hf : ∀ a, Obeys law (f a)) :
    Obeys law (x >>= f) := by
  intro m r n holds e
  rw [Run.on_bind] at e
  split at e
  · cases e
  · next a m₁ first =>
    have step := (h m _ m₁ holds first).1
    obtain ⟨step', ends⟩ := hf a m₁ r n (law.keeps holds step) e
    exact ⟨law.trans step step', ends⟩
  · next i m₁ first =>
    obtain ⟨step, ends⟩ := h m _ m₁ holds first
    cases e
    refine ⟨step, ?_⟩
    rintro _ ⟨⟩
    exact ends i rfl

/-- What is read off the machine may be used to show that the rest obeys. -/
lemma read {g : Machine → α} {f : α → Run β} (h : ∀ m, law.holds m → Obeys law (f (g m))) :
    Obeys law (Run.read g >>= f) :=
  fun m r n holds e => h m holds m r n holds e

/-- Only reading changes nothing. -/
lemma reads (g : Machine → α) : Obeys law (Run.read g) := by
  intro m r n _ e
  cases e
  exact ⟨law.refl m, nofun⟩

/-- After an action is caught, its interrupt is one that its law knows. That may be another law, if
it allows no more. -/
lemma attempt_under (inner : Law) {x : Run α} {f : Except Interrupt α → Run β}
    (enter : ∀ {m}, law.holds m → inner.holds m) (leave : ∀ {m n}, inner.step m n → law.step m n)
    (h : Obeys inner x) (hf : ∀ r, (∀ i, r = .error i → inner.ends i) → Obeys law (f r)) :
    Obeys law (Run.attempt x >>= f) := by
  intro m r n holds e
  rw [Run.on_bind, Run.on_attempt] at e
  cases ended : x.on m with
  | none =>
    rw [ended] at e
    cases e
  | some p =>
    obtain ⟨r₁, m₁⟩ := p
    rw [ended] at e
    obtain ⟨step, ends⟩ := h m r₁ m₁ (enter holds) ended
    obtain ⟨step', ends'⟩ := hf r₁ ends m₁ r n (law.keeps holds (leave step)) e
    exact ⟨law.trans (leave step) step', ends'⟩

/-- After an action is caught, its interrupt is one that the law knows. -/
lemma attempt {x : Run α} {f : Except Interrupt α → Run β} (h : Obeys law x)
    (hf : ∀ r, (∀ i, r = .error i → law.ends i) → Obeys law (f r)) :
    Obeys law (Run.attempt x >>= f) :=
  attempt_under law id id h hf

/-- An action that obeys a law obeys every law that promises less on fewer machines. -/
lemma mono {law' : Law} {x : Run α} (h : Obeys law x) (holds : ∀ {m}, law'.holds m → law.holds m)
    (step : ∀ {m n}, law'.holds m → law.step m n → law'.step m n)
    (ends : ∀ {i}, law.ends i → law'.ends i) : Obeys law' x := by
  intro m r n hm e
  obtain ⟨hs, he⟩ := h m r n (holds hm) e
  exact ⟨step hm hs, fun i hi => ends (he i hi)⟩

/-- A diagnostic, with its line in the log. -/
lemma diagnose {cause : Diagnostic.Cause}
    (h : ∀ m e, law.holds m → law.step m { m with
      log := m.log.push e, diagnostics := m.diagnostics.push ⟨m.line, cause⟩ }) :
    Obeys law (Run.diagnose cause) := by
  intro m r n holds e
  cases e
  exact ⟨h m _ holds, nofun⟩

/-- A name is looked up, or reported. -/
lemma lookup {name : String} (h : Obeys law (Run.diagnose (.undeclaredVariable name))) :
    Obeys law (Run.lookup name) := by
  refine read fun m _ => ?_
  split
  · exact pure _
  · exact h.bind fun _ => pure _

/-- A variable is changed, or its name reported. -/
lemma assign {name : String} {value : Value}
    (changes : ∀ m scope, law.holds m → m.scope.assign? name value = some scope →
      law.step m { m with scope := scope })
    (missing : Obeys law (Run.diagnose (.undeclaredAssignment name))) :
    Obeys law (Run.assign name value) := by
  intro m r n holds e
  rw [Run.assign, Run.on_bind, Run.on_read] at e
  cases changed : m.scope.assign? name value with
  | none =>
    simp only [changed] at e
    exact missing m r n holds e
  | some scope =>
    simp only [changed, Run.on_update] at e
    cases e
    refine ⟨changes m scope holds changed, ?_⟩
    rintro _ ⟨⟩

/-- A variable is changed by an operator, or its name reported. -/
lemma store {name : String} (changes : ∀ value, Obeys law (Run.assign name value))
    (missing : Obeys law (Run.diagnose (.undeclaredAssignment name))) (op : AssignOp)
    (value : Value) : Obeys law (Run.store name op value) := by
  unfold Run.store
  split
  · exact changes value
  · refine read fun m _ => ?_
    split
    · exact changes _
    · exact missing

/-- A random number is drawn. -/
lemma draw (h : ∀ m random, law.step m { m with random := random }) : Obeys law Run.draw := by
  refine read fun m _ => ?_
  exact bind (update fun n _ => h n _) fun _ => pure _

/-- The time is asked for. -/
lemma tellTime (h : ∀ m clock, law.step m { m with clock := clock }) :
    Obeys law Run.tellTime := by
  refine read fun m _ => ?_
  exact bind (update fun n _ => h n _) fun _ => pure _

/-- A line is written, or lost. -/
lemma print (lenient : law.Lenient) (line : String) : Obeys law (Run.print line) := by
  refine read fun m _ => ?_
  split
  · exact update fun n _ => lenient.log n _
  · exact update fun n _ => lenient.lines n _

/-- The run is cancelled on the current line. -/
lemma stop (lenient : law.Lenient) {reason : Cancellation}
    (ends : ∀ m, law.holds m → law.ends (.abort (.cancelled m.line reason))) :
    Obeys law (Run.stop reason : Run α) := by
  intro m r n holds e
  cases e
  refine ⟨lenient.log m _, ?_⟩
  rintro _ ⟨⟩
  exact ends m holds

/-- Only limits of steps and of time refuse a step. -/
lemma spend (lenient : law.Lenient) {limits : Limits}
    (steps : ∀ m granted refused, law.holds m →
      law.step m { m with budget.granted := granted, budget.refused := refused })
    (ends : ∀ m reason, law.holds m → (∀ limit, reason ≠ .callDepth limit) →
      law.ends (.abort (.cancelled m.line reason))) :
    Obeys law (Run.spend limits) := by
  intro m r n holds e
  rw [Run.on_spend] at e
  split at e
  · cases e
    exact ⟨steps m _ m.budget.refused holds, nofun⟩
  · next reason refusal =>
    cases e
    refine ⟨law.trans (steps m m.budget.granted _ holds) (lenient.log _ _), ?_⟩
    rintro _ ⟨⟩
    exact ends m reason holds (Budget.refusal?_ne_callDepth refusal)

/-- What a built-in function does is to print or to ask for the time. -/
lemma call_builtin (lenient : law.Lenient) {f : Function} (builtin : f ∈ Host.builtins)
    (limits : Limits) (invoke : Invoke) (fuel : Nat) (arguments : List Value) :
    Obeys law (f.call limits invoke fuel arguments) := by
  obtain ⟨text, prints⟩ | tells := Linework.call_builtin builtin arguments
  · rw [prints]
    exact (print lenient text).bind fun _ => pure _
  · rw [tells]
    exact (tellTime lenient.clock).bind fun _ => pure _

end Obeys

section

variable {law : Law} {limits : Limits} {invoke : Invoke} {fuel : Nat}

/-- What a law has to admit for expressions with the given variables and called functions. -/
structure Law.Admits (law : Law) (invoke : Invoke) (refs callees : List String) : Prop where
  draw : Obeys law Run.draw
  lookup : ∀ name ∈ refs, Obeys law (Run.lookup name)
  call : ∀ name ∈ callees, ∀ arguments, Obeys law (invoke name arguments)

/-- A law is a relation that does not look at the second action. -/
lemma Law.Admits.relates {refs callees : List String} (h : law.Admits invoke refs callees) :
    Relates (fun _ x _ => Obeys law x) id invoke invoke refs callees where
  pure := .pure
  bind := .bind
  draw := h.draw
  lookup := h.lookup
  call := h.call

/-- Evaluating an expression. -/
lemma obeys_eval (e : Expr) (h : law.Admits invoke e.refs e.callees) :
    Obeys law (e.eval invoke) :=
  h.relates.eval e

/-- Evaluating expressions from left to right. -/
lemma obeys_evalAll (es : List Expr)
    (h : law.Admits invoke (Expr.refsAll es) (Expr.calleesAll es)) :
    Obeys law (Expr.evalAll invoke es) :=
  h.relates.evalAll es

/-- Evaluating the rest of a chain of conditions. -/
lemma obeys_evalLogic (sofar : Bool) (es : List (Token × Expr))
    (h : law.Admits invoke (Expr.refsLogic es) (Expr.calleesLogic es)) :
    Obeys law (Expr.evalLogic invoke sofar es) :=
  h.relates.evalLogic sofar es

/-- Evaluating a formula, or reporting it. -/
lemma obeys_formula {f : Formula} (h : law.Admits invoke f.refs f.callees)
    (fault : ∀ error, f.compiled = .error error →
      Obeys law (Run.diagnose (.badFormula error f.source))) : Obeys law (f.eval invoke) :=
  h.relates.formula fault

/-- The law for what happens on one line: it starts there and the line stays the current one. -/
def Law.onLine (law : Law) (line : Nat) : Law where
  holds m := law.holds m ∧ m.line = line
  step m n := law.step m n ∧ n.line = m.line
  ends := law.ends
  refl m := ⟨law.refl m, rfl⟩
  trans h h' := ⟨law.trans h.1 h'.1, h'.2.trans h.2⟩
  keeps h h' := ⟨law.keeps h.1 h'.1, h'.2.trans h.2⟩

/-- On one line a law is as lenient as anywhere. -/
lemma Law.Lenient.onLine (h : law.Lenient) (line : Nat) : (law.onLine line).Lenient where
  log m e := ⟨h.log m e, rfl⟩
  lines m lines := ⟨h.lines m lines, rfl⟩
  random m random := ⟨h.random m random, rfl⟩
  clock m clock := ⟨h.clock m clock, rfl⟩

/-- A law that has nothing to say about the current line. -/
def Law.LineFree (law : Law) : Prop := ∀ m line, law.step m { m with line := line }

/-- What obeys the law on a line obeys the law if it goes to that line first. -/
lemma Obeys.after_atLine {α : Type} {x : Run α} {line : Nat} (free : law.LineFree)
    (h : Obeys (law.onLine line) x) : Obeys law (Run.atLine line >>= fun _ => x) := by
  intro m r n holds e
  have step : law.step m { m with line := line } := free m line
  obtain ⟨step', ends⟩ := h _ r n ⟨law.keeps holds step, rfl⟩ e
  exact ⟨law.trans step step'.1, ends⟩

/-- What obeys the law on every line obeys it. -/
lemma Obeys.of_onLine {α : Type} {x : Run α} (h : ∀ line, Obeys (law.onLine line) x) :
    Obeys law x := by
  intro m r n holds e
  obtain ⟨step, ends⟩ := h m.line m r n ⟨holds, rfl⟩ e
  exact ⟨step.1, ends⟩

/-- What a law has to allow for a statement, apart from its inner blocks. -/
structure Law.Allows (law : Law) (limits : Limits) (invoke : Invoke) (s : Statement) : Prop where
  spend : Obeys (law.onLine s.line) (Run.spend limits)
  formula : ∀ f ∈ s.formula?, Obeys (law.onLine s.line) (f.eval invoke)
  declare : ∀ name ∈ s.declared?, ∀ value, Obeys (law.onLine s.line) (Run.declare name value)
  store : ∀ name ∈ s.target?, ∀ op value, Obeys (law.onLine s.line) (Run.store name op value)
  yields : ∀ value, law.ends (.yield value s.line)

/-- The law for what may also end with some loop words, which look for their loop outside. -/
def Law.leaking (law : Law) (words : List (LoopWord × Nat)) : Law where
  holds := law.holds
  step := law.step
  ends i := law.ends i ∨ ∃ word line, (word, line) ∈ words ∧ i = .exit word line
  refl := law.refl
  trans := law.trans
  keeps := law.keeps

namespace Obeys

variable {α β : Type} {words words' : List (LoopWord × Nat)}

/-- What ends with fewer interrupts. -/
lemma leaking {x : Run α} (h : Obeys law x) : Obeys (law.leaking words) x :=
  h.mono id (fun _ step => step) .inl

/-- What may end with fewer loop words. -/
lemma leaking_mono {x : Run α} (h : Obeys (law.leaking words) x) (sub : words ⊆ words') :
    Obeys (law.leaking words') x := by
  refine h.mono id (fun _ step => step) ?_
  rintro i (ends | ⟨word, line, mem, e⟩)
  · exact .inl ends
  · exact .inr ⟨word, line, sub mem, e⟩

/-- A law that allows all loop words does not mind which of them leave. -/
lemma of_leaking {x : Run α} (h : Obeys (law.leaking words) x)
    (exits : ∀ word line, law.ends (.exit word line)) : Obeys law x := by
  refine h.mono id (fun _ step => step) ?_
  rintro i (ends | ⟨word, line, _, rfl⟩)
  · exact ends
  · exact exits word line

end Obeys

/-- A loop catches the loop words. -/
lemma obeys_afterRound {words : List (LoopWord × Nat)} {r : Except Interrupt Unit}
    (h : ∀ i, r = .error i → (law.leaking words).ends i) : Obeys law (afterRound r) := by
  have others {i : Interrupt} (e : r = .error i) (other : ∀ word line, i ≠ .exit word line) :
      law.ends i :=
    (h i e).resolve_right fun ⟨word, line, _, exits⟩ => other word line exits
  cases r with
  | ok => exact .pure true
  | error i =>
    cases i with
    | exit word line => cases word <;> exact .pure _
    | yield | abort => exact .throw (others rfl nofun)

/-- The law on one line, or on any line. -/
def Law.on (law : Law) (line? : Option Nat) : Law := line?.elim law law.onLine

/-- A law passes from the parts of a statement to the whole: it is a relation that does not look at
the second action. -/
lemma Law.LineFree.carries (free : law.LineFree) : (Pairing.same limits invoke fuel).Carries
    fun line? words _ x _ => Obeys ((law.on line?).leaking words) x where
  sequential _ _ := ⟨.pure, .bind⟩
  weaken sub h := h.leaking_mono sub
  atLine {_ words _ _ _} h :=
    have free : (law.leaking words).LineFree := free
    .after_atLine free h
  exits word line := .throw (.inr ⟨word, line, List.mem_singleton_self _, rfl⟩)

/-- A law passes from the rounds of a loop to the whole. -/
lemma Law.loops (law : Law) : (Pairing.same limits invoke fuel).Loops
    fun line? words _ x _ => Obeys ((law.on line?).leaking words) x where
  fuel := rfl
  outOfFuel := .outOfFuel
  catches {words _ _} h := .attempt_under (law.leaking words) id id h
    fun _ ends => (obeys_afterRound ends).leaking

/-- What a law allows for a statement is what its relation needs. -/
lemma Law.Allows.pairing {s : Statement} (h : law.Allows limits invoke s) (free : law.LineFree) :
    (Pairing.same limits invoke fuel).Allows
      (fun line? words _ x _ => Obeys ((law.on line?).leaking words) x) s where
  spend := h.spend.leaking
  formula f own := (h.formula f own).leaking
  declare name own value := (h.declare name own value).leaking
  store name own op value := (h.store name own op value).leaking
  yields value := .throw (.inl (h.yields value))
  loop _ {test test' _ body body'} tests bodies :=
    free.carries.rounds law.loops _ test test' body body' h.spend.leaking tests bodies

/-- A statement obeys a law that allows it and its inner statements, up to the loop words that leave
it. -/
lemma obeys_statement_leaking (free : law.LineFree) (s : Statement)
    (h : ∀ t ∈ s.parts, law.Allows limits invoke t) :
    Obeys (law.leaking s.strays) (s.execute limits invoke fuel) :=
  free.carries.statement s fun t mem => (h t mem).pairing free

/-- The rounds of a loop obey a law that allows one of them. -/
lemma obeys_rounds (free : law.LineFree) (bound : Nat) {line : Nat} {test : Run Value}
    {body : Run Unit} (spend : Obeys (law.onLine line) (Run.spend limits))
    (tests : Obeys (law.onLine line) test) (bodies : Obeys law body) :
    Obeys law (rounds limits line test body bound) := by
  have carries : (Pairing.same limits (fun _ _ => Run.outOfFuel) bound).Carries
      fun line? words _ x _ => Obeys ((law.on line?).leaking words) x := free.carries
  have round : Obeys (law.leaking []) body := bodies.leaking
  have leaking : Obeys (law.leaking []) (rounds limits line test body bound) :=
    carries.rounds law.loops _ test test body body spend.leaking tests.leaking round
  refine leaking.mono id (fun _ step => step) ?_
  rintro i (ends | ⟨word, line, mem, _⟩)
  · exact ends
  · cases mem

/-- A block obeys a law that allows each of its statements, at any nesting, up to the loop words
that leave it. -/
lemma obeys_block_leaking (free : law.LineFree) (b : Block)
    (h : ∀ t ∈ statements b, law.Allows limits invoke t) :
    Obeys (law.leaking (strays b)) (executeBlock limits invoke fuel b) :=
  free.carries.block_same rfl rfl b fun t mem => (h t mem).pairing free

/-- Under a law that does not mind loop words, which of them leave a block does not matter. -/
lemma obeys_block (free : law.LineFree) (exits : ∀ word line, law.ends (.exit word line))
    (b : Block) (h : ∀ t ∈ statements b, law.Allows limits invoke t) :
    Obeys law (executeBlock limits invoke fuel b) :=
  (obeys_block_leaking free b h).of_leaking exits

end

/-- A call obeys one law if the body obeys another, which holds where the body starts and allows no
more than the first does between the start and the end of the call. -/
lemma obeys_runBody {outer : Law} (inner : Law) {limits : Limits} {invoke : Invoke} {fuel : Nat}
    {frame : Frame} {body : Block} (enter : ∀ {m}, outer.holds m → inner.holds (m.enter frame))
    (leave : ∀ {m n}, outer.holds m → inner.step (m.enter frame) n → outer.step m (m.leave n))
    (aborts : ∀ {error}, inner.ends (.abort error) → outer.ends (.abort error))
    (strays : ∀ {word line}, inner.ends (.exit word line) →
      outer.ends (.abort (.strayLoopWord word line)))
    (refused : Obeys outer (Run.stop (.callDepth limits.maxCallDepth) : Run Value))
    (h : Obeys inner (executeBlock limits invoke fuel body)) :
    Obeys outer (runBody limits invoke fuel frame body) := by
  intro m r n holds e
  rw [on_runBody] at e
  split at e
  · obtain ⟨⟨r₁, n₁⟩, ended, e⟩ := Option.map_eq_some_iff.mp e
    cases e
    obtain ⟨step, ends⟩ := h _ r₁ n₁ (enter holds) ended
    refine ⟨leave holds step, ?_⟩
    intro i interrupted
    -- a value handed back ends the body, and a loop word outside of a loop becomes an error
    match r₁, ends with
    | .ok (), _ => cases interrupted
    | .error (.yield _ _), _ => cases interrupted
    | .error (.exit word line), ends =>
      cases interrupted
      exact strays (ends _ rfl)
    | .error (.abort error), ends =>
      cases interrupted
      exact aborts (ends _ rfl)
  · exact refused m r n holds e

/-- What is done behind another frame and in another context may be under a law of its own, which
holds there and allows no more than the first does from before to after. -/
lemma obeys_inside {outer : Law} (inner : Law) {α β : Type} {own : Option Frame} {here : Nat}
    {x : Run α} {f : Except Interrupt α → Run β}
    (enter : ∀ {m}, outer.holds m → inner.holds (m.behind own here))
    (leave : ∀ {m n}, outer.holds m → inner.step (m.behind own here) n →
      outer.step m (n.behind m.scope.own m.scope.here))
    (h : Obeys inner x) (hf : ∀ r, (∀ i, r = .error i → inner.ends i) → Obeys outer (f r)) :
    Obeys outer (Run.inside own here x >>= f) := by
  intro m r n holds e
  rw [Run.on_bind, Run.on_inside] at e
  cases ended : x.on (m.behind own here) with
  | none =>
    rw [ended] at e
    cases e
  | some p =>
    obtain ⟨r₁, n₁⟩ := p
    rw [ended] at e
    obtain ⟨step, ends⟩ := h _ r₁ n₁ (enter holds) ended
    have back := leave holds step
    obtain ⟨step', ends'⟩ := hf r₁ ends _ r n (outer.keeps holds back) e
    exact ⟨outer.trans back step', ends'⟩

/-- A result is handed on if the law knows its interrupt. -/
lemma Obeys.ofExcept {law : Law} {α : Type} {r : Except Interrupt α}
    (h : ∀ i, r = .error i → law.ends i) : Obeys law (Run.ofExcept r) := by
  cases r with
  | ok a => exact pure a
  | error i => exact throw (h i rfl)

end Linework
