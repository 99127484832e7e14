import Linework.Proofs.Agreement
import Linework.Proofs.Parametricity

/-!
# What limits can do to a run

A run under tighter limits is the same run, or one that is cancelled on its way. `agrees_execute`
says so for every block, two limits and two amounts of fuel at once. With the same limits on both
sides it says that more fuel changes nothing about a run that ends.
-/

namespace Linework

/-- Limits without a timeout that allow no more than others. -/
structure Limits.Within (L L' : Limits) : Prop where
  untimed : L'.timeout = none
  steps : ∀ b ∈ L'.maxSteps, ∃ a ∈ L.maxSteps, a ≤ b
  depth : L.maxCallDepth ≤ L'.maxCallDepth

/-- What narrower limits let through, wider limits do too. -/
lemma Budget.refusal?_of_within {L L' : Limits} (within : L.Within L') {watch : Watch} {b : Budget}
    (h : refusal? L watch b = none) : refusal? L' watch b = none := by
  obtain ⟨steps', timeout', depth'⟩ := L'
  obtain ⟨untimed, steps, depth⟩ := within
  cases untimed
  rw [refusal?] at h ⊢
  cases steps' with
  | none => rfl
  | some limit' =>
    obtain ⟨limit, some_limit, le⟩ := steps limit' rfl
    rw [Option.mem_def] at some_limit
    rw [some_limit] at h
    by_cases exceeded : limit < b.steps
    · simp [Option.filter, exceeded] at h
    · have within : ¬limit' < b.steps :=
        UInt64.not_lt.mpr (UInt64.le_trans (UInt64.not_lt.mp exceeded) le)
      simp [Option.filter, within]

/-- The first of two limits is the second, or narrower if the second is `free` of it. -/
def Limits.Narrows (free : Prop) (L L' : Limits) : Prop := L = L' ∨ free ∧ L.Within L'

namespace Agrees

variable {short free : Prop} {L L' : Limits}

/-- An action that stops fits every action that only goes on. -/
lemma fits_of_stop {α : Type} {x x' : Run α} {m n : Machine} {reason : Cancellation} (h : free)
    (e : x.on m = (Run.stop reason).on n) (back : n.LeadsTo m)
    (leads : ∀ {r n'}, x'.on m = some (r, n') → m.LeadsTo n') :
    Fits short free (x.on m) (x'.on m) := by
  rw [e, Run.on_stop]
  refine .cut h ?_
  intro r' n' e'
  have back' : Machine.LeadsTo { n with log := n.log.push (.cancelling n.line reason) } n :=
    .of_eq rfl rfl rfl
  exact back'.trans (back.trans (leads e'))

/-- A step agrees with itself. -/
lemma spend_self (L : Limits) : Agrees short free (Run.spend L) (Run.spend L) := by
  refine read fun m _ => read fun n _ => ?_
  refine bind (update fun _ => .of_eq rfl rfl rfl) fun _ => ?_
  split
  · exact pure _
  · exact stop _

/-- A step under narrower limits is a step under wider ones, or cancelled. -/
lemma spend (h : L.Narrows free L') : Agrees short free (Run.spend L) (Run.spend L') := by
  obtain rfl | ⟨free, within⟩ := h
  · exact spend_self L
  · have leads {m r n} := @(spend_self L' : Agrees short True _ _).leads m r n
    refine ⟨leads, ?_⟩
    intro m ordinary
    cases refusal : Budget.refusal? L m.watch
        { m.budget with granted := m.budget.granted + 1 } with
    | none =>
      rw [Run.on_spend L, Run.on_spend L', refusal, Budget.refusal?_of_within within refusal]
      exact .same _
    | some reason =>
      have stopped : (Run.spend L).on m =
          (Run.stop reason).on { m with budget.refused := m.budget.refused + 1 } := by
        rw [Run.on_spend, refusal]
      exact fits_of_stop free stopped (.of_eq rfl rfl rfl) (leads ordinary)

/-- A call under narrower limits agrees with one under wider ones if the bodies do. -/
lemma runBody (h : L.Narrows free L') {invoke invoke' : Invoke} {fuel fuel' : Nat} {frame : Frame}
    {body : Block} (plain : frame.functions = [])
    (bodies : Agrees short free (executeBlock L invoke fuel body)
      (executeBlock L' invoke' fuel' body)) :
    Agrees short free (runBody L invoke fuel frame body)
      (Linework.runBody L' invoke' fuel' frame body) := by
  have leads {m r n} (ordinary : m.IsOrdinary)
      (e : (Linework.runBody L' invoke' fuel' frame body).on m = some (r, n)) : m.LeadsTo n := by
    rw [on_runBody] at e
    split at e
    · obtain ⟨⟨r₁, n₁⟩, ended, e⟩ := Option.map_eq_some_iff.mp e
      cases e
      exact .of_enter (bodies.leads (ordinary.enter plain) ended)
    · cases e
      exact .of_eq rfl rfl rfl
  refine ⟨leads, ?_⟩
  intro m ordinary
  have inside := (bodies.fits (ordinary.enter plain)).map
    (g := fun r => (Interrupt.resolve r).mapError .abort) (fun _ _ => rfl) fun later =>
      later.leave (m := m)
  by_cases room : m.budget.depth < L.maxCallDepth
  · have room' : m.budget.depth < L'.maxCallDepth := by
      obtain rfl | ⟨-, within⟩ := h
      · exact room
      · exact Nat.lt_of_lt_of_le room within.depth
    rw [on_runBody, on_runBody, if_pos room, if_pos room']
    exact inside
  -- if only the narrower limit refuses the call, all that the other run does comes after that
  · have stopped : (Linework.runBody L invoke fuel frame body).on m =
        (Run.stop (.callDepth L.maxCallDepth)).on m := by
      rw [on_runBody, if_neg room]
    obtain rfl | ⟨free, -⟩ := h
    · rw [stopped, on_runBody, if_neg room]
      exact .same _
    · exact fits_of_stop free stopped (.refl m) (leads ordinary)

end Agrees

section

variable {short free : Prop} {L L' : Limits} {invoke invoke' : Invoke}

/-- Two ways of calling functions that agree on each name and arguments. -/
def Invoke.Agrees (short free : Prop) (invoke invoke' : Invoke) : Prop :=
  ∀ name arguments, Linework.Agrees short free (invoke name arguments) (invoke' name arguments)

/-- Evaluating a formula agrees if calls do. -/
lemma agrees_formula (calls : invoke.Agrees short free invoke') (f : Formula) :
    Agrees short free (f.eval invoke) ((f.rename id).eval invoke') := by
  have related : Relates (fun _ => Agrees short free) id invoke invoke' f.refs f.callees :=
    { pure := .pure
      bind := .bind
      draw := .draw
      lookup := fun name _ => .lookup name
      call := fun name _ => calls name }
  exact related.formula fun _ _ => .diagnose _

/-- What agrees with one more unit of fuel on both sides agrees with any fuel. -/
lemma agrees_fuel {ι α : Type} (x x' : Nat → ι → Run α) (empty : ∀ i, x 0 i = Run.outOfFuel)
    (empty' : ∀ i, x' 0 i = Run.outOfFuel)
    (step : ∀ {fuel fuel'}, (fuel = fuel' ∨ short ∧ fuel < fuel') →
      (∀ i, Agrees short free (x fuel i) (x' fuel' i)) →
      ∀ i, Agrees short free (x (fuel + 1) i) (x' (fuel' + 1) i))
    {fuel fuel' : Nat} (more : fuel = fuel' ∨ short ∧ fuel < fuel') (i : ι) :
    Agrees short free (x fuel i) (x' fuel' i) := by
  induction fuel' generalizing fuel i with
  | zero =>
    obtain rfl | ⟨-, lt⟩ := more
    · rw [empty, empty']
      exact .refl nofun
    · cases lt
  | succ fuel' ih =>
    cases fuel with
    | zero =>
      obtain more | ⟨short, -⟩ := more
      · cases more
      · -- the first action has no fuel left, and the second may be compared with itself
        refine ⟨(step (.inl rfl) (ih (.inl rfl)) i).leads, fun _ => ?_⟩
        rw [empty]
        exact .unfinished short _
    | succ fuel =>
      have less : fuel = fuel' ∨ short ∧ fuel < fuel' := by
        obtain more | ⟨short, lt⟩ := more
        · exact .inl (Nat.succ.inj more)
        · exact .inr ⟨short, Nat.lt_of_succ_lt_succ lt⟩
      exact step less (ih less) i

section

variable (short free L L' invoke invoke') (fuel fuel' : Nat)

/-- Two ways to execute statements with limits, calls and fuel of their own. -/
def compared : Pairing := ⟨id, id, L, L', invoke, invoke', fuel, fuel'⟩

/-- The agreement passes from the parts of a statement to the whole. -/
lemma agrees_carries : (compared L L' invoke invoke' fuel fuel').Carries
    fun _ _ _ => Agrees short free where
  sequential _ _ := ⟨.pure, .bind⟩
  weaken _ h := h
  atLine h := (Agrees.atLine _).bind fun _ => h
  exits _ _ := .throw _

end

/-- The rounds of a loop agree, also if the first loop has less fuel for them. -/
lemma agrees_rounds (h : L.Narrows free L') {line : Nat} {test test' : Run Value}
    {body body' : Run Unit} (tests : Agrees short free test test')
    (bodies : Agrees short free body body') {fuel fuel' : Nat}
    (more : fuel = fuel' ∨ short ∧ fuel < fuel') :
    Agrees short free (rounds L line test body fuel) (rounds L' line test' body' fuel') := by
  refine agrees_fuel (fun fuel (_ : Unit) => rounds L line test body fuel)
    (fun fuel _ => rounds L' line test' body' fuel) (fun _ => rfl) (fun _ => rfl) ?_ more ()
  intro fuel fuel' _ ih _
  rw [rounds_succ, rounds_succ]
  exact (agrees_carries short free L L' (fun _ _ => pure .null) (fun _ _ => pure .null) fuel
    fuel').round (.spend h) tests bodies.catches (ih ())

/-- Two ways to execute statements, of which the first has no more room than the second. -/
structure Narrows (short free : Prop) (L L' : Limits) (invoke invoke' : Invoke)
    (fuel fuel' : Nat) : Prop where
  limits : L.Narrows free L'
  calls : invoke.Agrees short free invoke'
  fuel : fuel = fuel' ∨ short ∧ fuel < fuel'

section

variable {fuel fuel' : Nat}

/-- Every statement may be executed with less room. -/
lemma Narrows.allows (h : Narrows short free L L' invoke invoke' fuel fuel') (s : Statement) :
    (compared L L' invoke invoke' fuel fuel').Allows (fun _ _ _ => Agrees short free) s where
  spend := .spend h.limits
  formula f _ := agrees_formula h.calls f
  declare name _ v := .declare name v
  store name _ op v := .store name op v
  yields _ := .throw _
  loop _ {_ _ _ _ _} tests bodies := agrees_rounds h.limits tests bodies h.fuel

/-- A block executed with less room. -/
lemma agrees_block (h : Narrows short free L L' invoke invoke' fuel fuel') (b : Block) :
    Agrees short free (executeBlock L invoke fuel b) (executeBlock L' invoke' fuel' b) :=
  (agrees_carries short free L L' invoke invoke' fuel fuel').block_same rfl rfl b
    fun s _ => h.allows s

/-- A built-in function does not depend on how it is run, and the bodies of others agree. -/
lemma agrees_call (h : Narrows short free L L' invoke invoke' fuel fuel') {f : Function}
    (ordinary : f.IsOrdinary) (arguments : List Value) :
    Agrees short free (f.call L invoke fuel arguments) (f.call L' invoke' fuel' arguments) := by
  obtain builtin | ⟨block, body⟩ := ordinary
  · obtain ⟨text, prints⟩ | tells := call_builtin builtin arguments
    · rw [prints, prints]
      exact (Agrees.print text).bind fun _ => .pure _
    · rw [tells, tells]
      exact Agrees.tellTime.bind fun _ => .pure _
  · rw [Function.call, Function.call, body]
    exact (Agrees.record _).bind fun _ =>
      .runBody h.limits (f.functions_frame arguments) (agrees_block h block)

end

/-- Calls under narrower limits or with less fuel. -/
lemma agrees_callByName (h : L.Narrows free L') {fuel fuel' : Nat}
    (more : fuel = fuel' ∨ short ∧ fuel < fuel') :
    (callByName L fuel).Agrees short free (callByName L' fuel') := by
  intro name arguments
  refine agrees_fuel (fun fuel (i : String × List Value) => callByName L fuel i.1 i.2)
    (fun fuel i => callByName L' fuel i.1 i.2) (fun _ => rfl) (fun _ => rfl) ?_ more
    (name, arguments)
  rintro fuel fuel' more ih ⟨name, arguments⟩
  have calls : (callByName L fuel).Agrees short free (callByName L' fuel') :=
    fun name arguments => ih (name, arguments)
  refine .read fun m ordinary => ?_
  cases found : m.scope.function? name with
  | none => exact (Agrees.diagnose _).bind fun _ => .pure _
  | some f => exact agrees_call ⟨h, calls, more⟩ (ordinary.found found) arguments

/-- A block executed under narrower limits or with less fuel. -/
lemma agrees_execute (h : L.Narrows free L') {fuel fuel' : Nat}
    (more : fuel = fuel' ∨ short ∧ fuel < fuel') (block : Block) :
    Agrees short free (execute L fuel block) (execute L' fuel' block) :=
  agrees_block ⟨h, agrees_callByName h more, more⟩ block

end

/-- A run under narrower limits or with less fuel is the same run, or has stopped before. -/
lemma run_cases (short free : Prop) {L L' : Limits} (h : L.Narrows free L')
    {fuel fuel' : Nat} (more : fuel = fuel' ∨ short ∧ fuel < fuel') (m : Machine)
    (script : Script) :
    m.run L fuel builtinRoot script = m.run L' fuel' builtinRoot script ∨
    short ∧ m.run L fuel builtinRoot script = none ∨
    free ∧ ∃ line reason n,
      m.run L fuel builtinRoot script = some (.error (.cancelled line reason), n) ∧
      ∀ r' n', m.run L' fuel' builtinRoot script = some (r', n') → n.LeadsTo n' := by
  have agrees : Agrees short free (execute L fuel script.block) (execute L' fuel' script.block) :=
    agrees_execute h more script.block
  have fits := agrees.fits (ordinary_restart m script)
  rw [Machine.run, Machine.run]
  generalize (execute L fuel script.block).on (m.restart builtinRoot script) = o at fits ⊢
  generalize (execute L' fuel' script.block).on (m.restart builtinRoot script) = o' at fits ⊢
  cases fits with
  | same => exact .inl rfl
  | unfinished short => exact .inr (.inl ⟨short, rfl⟩)
  | @cut free line reason n _ ahead =>
    refine .inr (.inr ⟨free, line, reason, _, rfl, ?_⟩)
    intro r' n' e
    obtain ⟨⟨r, n₁⟩, ended, e⟩ := Option.map_eq_some_iff.mp e
    cases e
    have later := ahead ended
    exact ⟨later.lines, later.diagnostics, later.shape⟩

/-- More fuel changes nothing about a run that ends. -/
lemma run_of_more_fuel {L : Limits} {fuel fuel' : Nat} (le : fuel ≤ fuel') {m : Machine}
    {script : Script} {p : Except RunError Value × Machine}
    (ended : m.run L fuel builtinRoot script = some p) :
    m.run L fuel' builtinRoot script = some p := by
  have more : fuel = fuel' ∨ True ∧ fuel < fuel' := by
    rw [true_and]
    exact Nat.eq_or_lt_of_le le
  obtain same | ⟨-, unfinished⟩ | ⟨cut, -⟩ := run_cases True False (.inl rfl) more m script
  · rw [← same, ended]
  · rw [ended] at unfinished
    cases unfinished
  · exact cut.elim

/-- With the same fuel, narrower limits cancel a run or do not matter to it. -/
lemma run_within {L L' : Limits} (within : L.Within L') (fuel : Nat) (m : Machine)
    (script : Script) :
    m.run L fuel builtinRoot script = m.run L' fuel builtinRoot script ∨
    ∃ line reason n,
      m.run L fuel builtinRoot script = some (.error (.cancelled line reason), n) ∧
      ∀ r' n', m.run L' fuel builtinRoot script = some (r', n') → n.LeadsTo n' := by
  obtain same | ⟨short, -⟩ | ⟨-, cut⟩ :=
    run_cases False True (.inr ⟨trivial, within⟩) (.inl (Eq.refl fuel)) m script
  · exact .inl same
  · exact short.elim
  · exact .inr cut

/-- Wider limits keep every run that is not cancelled, and every run that goes on for ever. A run
that is cancelled has written a beginning of what it writes under wider limits. -/
theorem run_of_wider_limits (m : Machine) (script : Script) {steps steps' : Option UInt64}
    {depth depth' : Nat} (more_steps : ∀ b ∈ steps', ∃ a ∈ steps, a ≤ b)
    (more_depth : depth ≤ depth') :
    (∀ fuel r n, m.run ⟨steps, none, depth⟩ fuel builtinRoot script = some (r, n) →
      (∀ line reason, r ≠ .error (.cancelled line reason)) →
      ∀ fuel' ≥ fuel, m.run ⟨steps', none, depth'⟩ fuel' builtinRoot script = some (r, n)) ∧
    (∀ fuel, m.run ⟨steps, none, depth⟩ fuel builtinRoot script = none →
      m.run ⟨steps', none, depth'⟩ fuel builtinRoot script = none) ∧
    ∀ fuel fuel' line reason n r' n',
      m.run ⟨steps, none, depth⟩ fuel builtinRoot script =
        some (.error (.cancelled line reason), n) →
      m.run ⟨steps', none, depth'⟩ fuel' builtinRoot script = some (r', n') →
      n.console.lines.toList <+: n'.console.lines.toList ∧
        n.diagnostics.toList <+: n'.diagnostics.toList := by
  have within : Limits.Within ⟨steps, none, depth⟩ ⟨steps', none, depth'⟩ :=
    ⟨rfl, more_steps, more_depth⟩
  refine ⟨?_, ?_, ?_⟩
  · intro fuel r n ended uncut fuel' le
    obtain same | ⟨line, reason, n₁, cancelled, -⟩ := run_within within fuel m script
    · exact run_of_more_fuel le (same.symm.trans ended)
    · rw [ended] at cancelled
      cases cancelled
      exact absurd rfl (uncut line reason)
  · intro fuel unfinished
    obtain same | ⟨line, reason, n₁, cancelled, -⟩ := run_within within fuel m script
    · exact same.symm.trans unfinished
    · rw [unfinished] at cancelled
      cases cancelled
  · intro fuel fuel' line reason n r' n' ended ended'
    -- both runs end in the same way with the larger of the two amounts of fuel
    have ended_max := run_of_more_fuel (Nat.le_max_left fuel fuel') ended
    have ended_max' := run_of_more_fuel (Nat.le_max_right fuel fuel') ended'
    obtain same | ⟨_, _, n₁, cancelled, ahead⟩ := run_within within (max fuel fuel') m script
    · rw [ended_max, ended_max'] at same
      cases same
      exact ⟨List.prefix_rfl, List.prefix_rfl⟩
    · rw [ended_max] at cancelled
      cases cancelled
      have later := ahead r' n' ended_max'
      exact ⟨later.lines, later.diagnostics⟩

/-- A call of a function without arguments, on its own line. -/
def callLine (line : Nat) (name : String) : Statement :=
  .plain line (.compute ⟨name ++ "()", .ok (.call ⟨.identifier, name, none, 1⟩ [])⟩)

/-- A script that prints a line and calls itself. -/
def descent : Script where
  block := [callLine 1 "down"]
  functions := [⟨"down", [], [callLine 3 "debug", callLine 4 "down"]⟩]
  warnings := []

/-- The error that a run ends with and the number of lines that are printed then. -/
def failure? (run : Option (Except RunError Value × Machine)) : Option (RunError × Nat) :=
  match run with
  | some (.error e, n) => some (e, n.console.lines.size)
  | _ => none

/-- A failure as the end of a run. -/
lemma eq_some_of_failure? {run : Option (Except RunError Value × Machine)} {e : RunError}
    {k : Nat} (h : failure? run = some (e, k)) :
    ∃ n, run = some (.error e, n) ∧ n.console.lines.size = k := by
  unfold failure? at h
  split at h
  · next n =>
    cases h
    exact ⟨n, rfl, rfl⟩
  · cases h

/-- A deeper limit on calls lets the function call itself once more. -/
theorem run_of_wider_limits_descent :
    (∀ b ∈ (none : Option UInt64), ∃ a ∈ some (9 : UInt64), a ≤ b) ∧ 2 ≤ 3 ∧
    ∃ n n',
      Engine.quiet.machine.run ⟨some 9, none, 2⟩ 5 builtinRoot descent =
        some (.error (.cancelled 4 (.callDepth 2)), n) ∧
      Engine.quiet.machine.run ⟨none, none, 3⟩ 5 builtinRoot descent =
        some (.error (.cancelled 4 (.callDepth 3)), n') ∧
      n.console.lines.size = 2 ∧ n'.console.lines.size = 3 ∧
      n.console.lines.toList <+: n'.console.lines.toList ∧
      n.diagnostics.toList <+: n'.diagnostics.toList := by
  have steps : ∀ b ∈ (none : Option UInt64), ∃ a ∈ some (9 : UInt64), a ≤ b := nofun
  have depth : 2 ≤ 3 := by decide
  have fails : failure? (Engine.quiet.machine.run ⟨some 9, none, 2⟩ 5 builtinRoot descent) =
      some (.cancelled 4 (.callDepth 2), 2) := by decide +kernel
  have fails' : failure? (Engine.quiet.machine.run ⟨none, none, 3⟩ 5 builtinRoot descent) =
      some (.cancelled 4 (.callDepth 3), 3) := by decide +kernel
  obtain ⟨n, ended, two⟩ := eq_some_of_failure? fails
  obtain ⟨n', ended', three⟩ := eq_some_of_failure? fails'
  refine ⟨steps, depth, n, n', ended, ended', two, three, ?_⟩
  exact (run_of_wider_limits _ descent steps depth).2.2 5 5 4 _ n _ n' ended ended'

end Linework
