import Linework.Proofs.Reports
import Linework.Proofs.StepBudget

/-!
# Runs end

Fuel bounds two things, the calls within calls and the rounds of a loop. Calls within calls are
bounded by the limit on their depth, which always exists, and the rounds by the limit on steps, if
there are loops at all: every round pays a step, a step that was paid is never given back, and the
first step that is refused ends the run. So the sum of both limits is enough fuel. The one limit on
steps for which this fails is the highest number that the counter can show.
-/

namespace Linework

/-- A limit on steps that the counter can exceed. -/
def Limits.Exceedable (limits : Limits) (most : UInt64) : Prop :=
  limits.maxSteps = some most ∧ most < 18446744073709551615

/-- One more step than such a limit can be counted. -/
lemma Limits.Exceedable.countable {limits : Limits} {most : UInt64} (h : limits.Exceedable most) :
    most.toNat + 1 < UInt64.size :=
  Nat.succ_lt_succ (UInt64.lt_iff_toNat_lt.mp h.2)

/-- What a run does to a machine as long as nothing ends it: of the scope only values change, the
depth stays, and the steps grow within their limit. -/
structure Advances (limits : Limits) (m n : Machine) : Prop where
  shape : n.scope.shape = m.scope.shape
  depth : n.budget.depth = m.budget.depth
  ticks : m.budget.ticks ≤ n.budget.ticks
  within (most : UInt64) : limits.Exceedable most → m.budget.ticks ≤ most.toNat →
    n.budget.ticks ≤ most.toNat

namespace Advances

variable {limits : Limits} {l m n : Machine}

/-- A change that has nothing to do with the steps. -/
lemma of_eq (shape : n.scope.shape = m.scope.shape) (budget : n.budget = m.budget) :
    Advances limits m n :=
  ⟨shape, budget ▸ rfl, budget ▸ Nat.le_refl _, fun _ _ h => budget ▸ h⟩

/-- One action after another. -/
lemma trans (h : Advances limits l m) (h' : Advances limits m n) : Advances limits l n where
  shape := h'.shape.trans h.shape
  depth := h'.depth.trans h.depth
  ticks := Nat.le_trans h.ticks h'.ticks
  within most limited le := h'.within most limited (h.within most limited le)

/-- What a body does is what its call does. -/
lemma of_enter {frame : Frame} (h : Advances limits (m.enter frame) n) :
    Advances limits m (m.leave n) where
  shape := Scope.shape_back h.shape m.scope.own m.scope.here
  depth := by
    have deeper : n.budget.depth = m.budget.depth + 1 := h.depth
    show n.budget.depth - 1 = m.budget.depth
    omega
  ticks := h.ticks
  within := h.within

end Advances

/-- The law of a run in which only the functions of a script are in sight, at a depth of calls. -/
def running (script : Script) (limits : Limits) (depth : Nat) : Law where
  holds m := m.scope.AllFunctions script.Knows ∧ m.budget.depth = depth ∧
    ∀ most, limits.Exceedable most → m.budget.ticks ≤ most.toNat
  step := Advances limits
  ends _ := True
  refl _ := .of_eq rfl rfl
  trans := .trans
  keeps h h' := ⟨h.1.of_shape h'.shape, h'.depth.trans h.2.1,
    fun most limited => h'.within most limited (h.2.2 most limited)⟩

/-- On a machine the action ends, and does nothing but what the law allows unless it ends the whole
run. -/
def Halts (law : Law) {α : Type} (x : Run α) (m : Machine) : Prop :=
  ∃ r n, x.on m = some (r, n) ∧ ((∀ error, r ≠ .error (.abort error)) → law.step m n)

/-- The action ends on every machine of the law. -/
def Total (law : Law) {α : Type} (x : Run α) : Prop := ∀ m, law.holds m → Halts law x m

section

variable {law : Law} {α β : Type} {x : Run α} {f : α → Run β} {m : Machine}

/-- What follows has to end only after a value. -/
lemma Halts.bind (holds : law.holds m) (h : Halts law x m)
    (hf : ∀ a n, law.holds n → law.step m n → x.on m = some (.ok a, n) → Halts law (f a) n) :
    Halts law (x >>= f) m := by
  obtain ⟨r, n, ended, step⟩ := h
  cases r with
  | error i =>
    refine ⟨.error i, n, by rw [Run.on_bind, ended], fun other => step fun error same => ?_⟩
    cases same
    exact other error rfl
  | ok a =>
    have step := step nofun
    obtain ⟨r', n', ended', step'⟩ := hf a n (law.keeps holds step) step ended
    refine ⟨r', n', by rw [Run.on_bind, ended]; exact ended', fun other => ?_⟩
    exact law.trans step (step' other)

namespace Total

/-- What obeys the law and always ends. -/
lemma of_obeys (h : Obeys law x) (ends : ∀ m, (x.on m).isSome) : Total law x := by
  intro m holds
  obtain ⟨⟨r, n⟩, ended⟩ := Option.isSome_iff_exists.mp (ends m)
  exact ⟨r, n, ended, fun _ => (h m r n holds ended).1⟩

/-- Nothing happens. -/
lemma pure (a : α) : Total law (Pure.pure a : Run α) := .of_obeys (.pure a) fun _ => rfl

/-- An interrupt. -/
lemma throw (i : Interrupt) : Total law (MonadExcept.throw i : Run α) :=
  fun m _ => ⟨.error i, m, rfl, fun _ => law.refl m⟩

/-- One action after another. -/
lemma bind (h : Total law x) (hf : ∀ a, Total law (f a)) : Total law (x >>= f) :=
  fun m holds => .bind holds (h m holds) fun a n holds _ _ => hf a n holds

/-- What is read off the machine may be used to show that the rest ends. -/
lemma read {g : Machine → α} (h : ∀ m, law.holds m → Total law (f (g m))) :
    Total law (Run.read g >>= f) :=
  fun m holds => h m holds m holds

/-- A round that ends the whole run is not caught, and after any other one the law goes on. -/
lemma catches {body : Run Unit} (h : Total law body) :
    Total law (Run.attempt body >>= afterRound) := by
  intro m holds
  obtain ⟨r, n, ended, step⟩ := h m holds
  rw [Halts, Run.on_bind, Run.on_attempt, ended]
  rcases r with (⟨word, line⟩ | ⟨value, line⟩ | error) | _
  · cases word with
    | leave => exact ⟨.ok false, n, rfl, fun _ => step nofun⟩
    | again => exact ⟨.ok true, n, rfl, fun _ => step nofun⟩
  · exact ⟨.error (.yield value line), n, rfl, fun _ => step nofun⟩
  · exact ⟨.error (.abort error), n, rfl, fun other => absurd rfl (other error)⟩
  · exact ⟨.ok true, n, rfl, fun _ => step nofun⟩

end Total

end

section

variable {script : Script} {limits : Limits} {depth : Nat} {invoke : Invoke} {fuel : Nat}

/-- A run may write, and be told numbers and the time. -/
lemma lenient_running : (running script limits depth).Lenient :=
  ⟨fun _ _ => .of_eq rfl rfl, fun _ _ => .of_eq rfl rfl, fun _ _ => .of_eq rfl rfl,
    fun _ _ => .of_eq rfl rfl⟩

/-- A run may report. -/
lemma obeys_diagnose_running (cause : Diagnostic.Cause) :
    Obeys (running script limits depth) (Run.diagnose cause) :=
  .diagnose fun _ _ _ => .of_eq rfl rfl

/-- A report ends. -/
lemma total_diagnose (cause : Diagnostic.Cause) :
    Total (running script limits depth) (Run.diagnose cause) :=
  .of_obeys (obeys_diagnose_running cause) fun _ => rfl

/-- Looking up a name ends. -/
lemma total_lookup (name : String) : Total (running script limits depth) (Run.lookup name) := by
  refine .read fun m _ => ?_
  split
  · exact .pure _
  · exact .bind (total_diagnose _) fun _ => .pure _

/-- Changing a variable ends. -/
lemma total_assign (name : String) (value : Value) :
    Total (running script limits depth) (Run.assign name value) := by
  refine .of_obeys (.assign ?_ (obeys_diagnose_running _)) fun m => ?_
  · exact fun m scope _ changed => .of_eq (Scope.shape_assign? changed) rfl
  · simp only [Run.assign, Run.on_bind, Run.on_read]
    cases m.scope.assign? name value <;> rfl

/-- Changing a variable by an operator ends. -/
lemma total_store (name : String) (op : AssignOp) (value : Value) :
    Total (running script limits depth) (Run.store name op value) := by
  unfold Run.store
  split
  · exact total_assign name value
  · refine .read fun m _ => ?_
    split
    · exact total_assign name _
    · exact total_diagnose _

/-- A step that is let through is within the limit; one that is not ends the run. -/
lemma total_spend : Total (running script limits depth) (Run.spend limits) := by
  intro m holds
  rw [Halts, Run.on_spend]
  split
  · next free =>
    refine ⟨_, _, rfl, fun _ => ⟨rfl, rfl, Nat.add_le_add_right (Nat.le_succ _) _, ?_⟩⟩
    intro most limited le
    have few : m.budget.ticks + 1 < UInt64.size :=
      Nat.lt_of_le_of_lt (Nat.succ_le_succ le) limited.countable
    refine Budget.ticks_le_of_steps_le ?_ (Budget.steps_le_of_refusal? limited.1 free)
    simp only [Budget.ticks] at few ⊢
    omega
  · next reason _ => exact ⟨_, _, rfl, fun other => absurd rfl (other _)⟩

/-- Calls that end at a depth. -/
def Invoke.Total (script : Script) (limits : Limits) (depth : Nat) (invoke : Invoke) : Prop :=
  ∀ name arguments, Linework.Total (running script limits depth) (invoke name arguments)

/-- A formula ends if calls do. -/
lemma total_formula (calls : invoke.Total script limits depth) (f : Formula) :
    Total (running script limits depth) (f.eval invoke) := by
  have related : Relates (fun _ x _ => Total (running script limits depth) x) id invoke invoke
      f.refs f.callees :=
    { pure := .pure
      bind := .bind
      draw := .of_obeys (.draw lenient_running.random) fun _ => rfl
      lookup := fun name _ => total_lookup name
      call := fun name _ => calls name }
  exact related.formula fun _ _ => total_diagnose _

/-- Going to a line ends. -/
lemma total_atLine (line : Nat) : Total (running script limits depth) (Run.atLine line) :=
  .of_obeys (.update fun _ _ => .of_eq rfl rfl) fun _ => rfl

/-- A loop ends if its rounds are as many as the steps that are left. -/
lemma halts_rounds {most : UInt64} (limited : limits.Exceedable most) {line : Nat}
    {condition : Run Value} {body : Run Unit}
    (test : Total (running script limits depth) condition)
    (round : Total (running script limits depth) body) {bound : Nat} {m : Machine}
    (holds : (running script limits depth).holds m)
    (enough : most.toNat < bound + m.budget.ticks) :
    Halts (running script limits depth) (rounds limits line condition body bound) m := by
  induction bound generalizing m with
  | zero =>
    have le := holds.2.2 most limited
    omega
  | succ bound ih =>
    simp only [rounds, ← bind_assoc (Run.attempt _)]
    refine .bind holds (total_atLine line m holds) fun _ m₁ holds step₁ _ => ?_
    refine .bind holds (test m₁ holds) fun v m₂ holds step₂ _ => ?_
    split
    · refine .bind holds (total_spend m₂ holds) fun _ m₃ holds _ paid => ?_
      refine .bind holds (round.catches m₃ holds) fun again m₄ holds step₄ _ => ?_
      split
      · -- the step of this round makes up for the round that is gone
        have one : m₃.budget.ticks = m₂.budget.granted + 1 + m₂.budget.refused := by
          rw [(Run.eq_of_spend paid).1]
          rfl
        have le₂ : m.budget.ticks ≤ m₂.budget.granted + m₂.budget.refused :=
          Nat.le_trans step₁.ticks step₂.ticks
        have le₄ : m₃.budget.ticks ≤ m₄.budget.ticks := step₄.ticks
        exact ih holds (by omega)
      · exact Total.pure () m₄ holds
    · exact Total.pure () m₂ holds

/-- For loops, fuel for all steps that the limit allows. -/
def Fuelled (limits : Limits) (fuel : Nat) (s : Statement) : Prop :=
  s.isLoop → ∃ most, limits.Exceedable most ∧ most.toNat < fuel

/-- That actions end passes from the parts of a statement to the whole. -/
lemma total_carries : (Pairing.same limits invoke fuel).Carries
    fun _ _ _ x _ => Total (running script limits depth) x where
  sequential _ _ := ⟨.pure, .bind⟩
  weaken _ h := h
  atLine h := (total_atLine _).bind fun _ => h
  exits _ _ := .throw _

/-- A statement ends if calls do and there is fuel for its loops. -/
lemma total_allows (calls : invoke.Total script limits depth) {s : Statement}
    (fuelled : Fuelled limits fuel s) : (Pairing.same limits invoke fuel).Allows
      (fun _ _ _ x _ => Total (running script limits depth) x) s where
  spend := total_spend
  formula f _ := total_formula calls f
  declare name _ v :=
    .of_obeys (.update fun m _ => .of_eq (m.scope.shape_declare name v) rfl) fun _ => rfl
  store name _ op v := total_store name op v
  yields _ := .throw _
  loop isLoop _ _ _ _ _ test round m holds := by
    obtain ⟨most, limited, enough⟩ := fuelled isLoop
    exact halts_rounds limited test round holds (Nat.lt_add_right _ enough)

/-- A block ends if calls do and there is fuel for its loops. -/
lemma total_block (calls : invoke.Total script limits depth) (b : Block)
    (fuelled : ∀ t ∈ statements b, Fuelled limits fuel t) :
    Total (running script limits depth) (executeBlock limits invoke fuel b) :=
  total_carries.block_same rfl rfl b fun t mem => total_allows calls (fuelled t mem)

/-- A built-in function ends. -/
lemma total_builtin {f : Function} (builtin : f ∈ Host.builtins) (arguments : List Value) :
    Total (running script limits depth) (f.call limits invoke fuel arguments) := by
  refine .of_obeys (.call_builtin lenient_running builtin limits invoke fuel arguments) fun m => ?_
  obtain ⟨text, prints⟩ | tells := call_builtin builtin arguments
  · rw [prints, Run.on_bind, Run.print, Run.on_bind, Run.on_read]
    cases m.console.broken <;> rfl
  · rw [tells]
    rfl

/-- A function of a script ends if its body does, one call deeper. At the limit on depth there is no
body to run. -/
lemma total_defined {d : Definition}
    (body : depth < limits.maxCallDepth →
      Total (running script limits (depth + 1)) (executeBlock limits invoke fuel d.body))
    (arguments : List Value) :
    Total (running script limits depth) (d.toFunction.call limits invoke fuel arguments) := by
  refine .bind (.of_obeys (.update fun m _ => lenient_running.log m _) fun _ => rfl) fun _ => ?_
  intro m holds
  rw [Halts, on_runBody]
  split
  · next room =>
    have plain : ∀ frame ∈ some (d.toFunction.frame arguments), frame.functions = [] := by
      rintro _ ⟨⟩
      exact d.toFunction.functions_frame arguments
    obtain ⟨r, n, ended, step⟩ := body (holds.2.1 ▸ room) (m.enter (d.toFunction.frame arguments))
      ⟨holds.1.behind plain, congrArg (· + 1) holds.2.1, holds.2.2⟩
    refine ⟨(Interrupt.resolve r).mapError .abort, m.leave n, ?_, fun other => ?_⟩
    · rw [ended]
      rfl
    · refine (step fun error same => ?_).of_enter
      cases same
      exact other error rfl
  · exact ⟨_, _, rfl, fun other => absurd rfl (other _)⟩

end

section

variable {script : Script} {limits : Limits}
  (bounded : (∃ most, limits.Exceedable most) ∨ ∀ s ∈ script.statements, s.isLoop = false)

include bounded

/-- There is fuel for all loops of a script. -/
lemma fuelled_of_mem {fuel : Nat} (enough : (limits.maxSteps.getD 0).toNat < fuel) {s : Statement}
    (mem : s ∈ script.statements) : Fuelled limits fuel s := by
  intro loop
  rcases bounded with ⟨most, limited⟩ | free
  · rw [limited.1] at enough
    exact ⟨most, limited, enough⟩
  · exact absurd loop (by simp [free s mem])

/-- Calls end if the fuel is more than the depth that is left and the steps that are allowed. -/
lemma total_callByName {fuel depth : Nat} (within : depth ≤ limits.maxCallDepth)
    (enough : limits.maxCallDepth + (limits.maxSteps.getD 0).toNat < fuel + depth) :
    (callByName limits fuel).Total script limits depth := by
  induction fuel generalizing depth with
  | zero => omega
  | succ fuel ih =>
    intro name arguments
    refine .read fun m holds => ?_
    split
    · next f found =>
      obtain builtin | ⟨d, defined, rfl⟩ := holds.1.found found
      · exact total_builtin builtin arguments
      · -- the body is one call deeper, which makes up for the fuel of this call
        refine total_defined (fun room => ?_) arguments
        refine total_block (ih room (by omega)) d.body fun s mem => ?_
        refine fuelled_of_mem bounded (by omega) ?_
        exact List.mem_append_right _ (List.mem_flatMap.mpr ⟨d, defined, mem⟩)
    · exact .bind (total_diagnose _) fun _ => .pure _

end

/-- With a limit on steps that is not the highest number the counter can show, or without loops, a
run ends, and more fuel than the limits add up to does not change how. -/
theorem run_ends (m : Machine) (limits : Limits) (script : Script)
    (bounded : (∃ most, limits.maxSteps = some most ∧ most < 18446744073709551615) ∨
      ∀ s ∈ script.statements, s.isLoop = false) :
    ∃ r n, ∀ fuel, limits.maxCallDepth + (limits.maxSteps.getD 0).toNat < fuel →
      m.run limits fuel builtinRoot script = some (r, n) := by
  obtain ⟨fuel, def_fuel⟩ :
      ∃ fuel, fuel = limits.maxCallDepth + (limits.maxSteps.getD 0).toNat + 1 := ⟨_, rfl⟩
  have calls : (callByName limits fuel).Total script limits 0 :=
    total_callByName bounded (Nat.zero_le _) (by omega)
  have block : Total (running script limits 0) (execute limits fuel script.block) := by
    refine total_block calls script.block fun s mem => ?_
    exact fuelled_of_mem bounded (by omega) (List.mem_append_left _ mem)
  obtain ⟨r, n, ended, -⟩ := block (m.restart builtinRoot script)
    ⟨knows_restart m script, rfl, fun _ _ => Nat.zero_le _⟩
  have run : (m.run limits fuel builtinRoot script).isSome := by
    rw [Machine.run, ended]
    rfl
  obtain ⟨⟨r, n⟩, run⟩ := Option.isSome_iff_exists.mp run
  exact ⟨r, n, fun fuel' more => run_of_more_fuel (by omega) run⟩

/-- A script that calls a function without statements for ever. -/
def restless : Script where
  block := [.loop 1 always [callLine 2 "pause"]]
  functions := [⟨"pause", [], []⟩]
  warnings := []

/-- An endless loop ends for lack of steps, and a function that calls itself for lack of depth. -/
theorem run_ends_restless :
    (∃ n, ∀ fuel, 6 < fuel → Engine.quiet.machine.run ⟨some 4, none, 2⟩ fuel builtinRoot
      restless = some (.error (.cancelled 2 (.stepLimit 4)), n)) ∧
    (∀ s ∈ descent.statements, s.isLoop = false) ∧
    ∃ n, ∀ fuel, 2 < fuel → Engine.quiet.machine.run ⟨none, none, 2⟩ fuel builtinRoot
      descent = some (.error (.cancelled 4 (.callDepth 2)), n) := by
  have free : ∀ s ∈ descent.statements, s.isLoop = false := by decide
  refine ⟨?_, free, ?_⟩
  · obtain ⟨r, n, ends⟩ := run_ends Engine.quiet.machine ⟨some 4, none, 2⟩ restless
      (.inl ⟨4, rfl, by decide⟩)
    have fails : failure? (Engine.quiet.machine.run ⟨some 4, none, 2⟩ 7 builtinRoot restless) =
        some (.cancelled 2 (.stepLimit 4), 0) := by decide +kernel
    obtain ⟨n', ended, -⟩ := eq_some_of_failure? fails
    cases ended.symm.trans (ends 7 (by decide))
    exact ⟨n, ends⟩
  · obtain ⟨r, n, ends⟩ := run_ends Engine.quiet.machine ⟨none, none, 2⟩ descent (.inr free)
    have fails : failure? (Engine.quiet.machine.run ⟨none, none, 2⟩ 3 builtinRoot descent) =
        some (.cancelled 4 (.callDepth 2), 2) := by decide +kernel
    obtain ⟨n', ended, -⟩ := eq_some_of_failure? fails
    cases ended.symm.trans (ends 3 (by decide))
    exact ⟨n, ends⟩

/-- Under the highest limit on steps the rounds of an endless loop are never enough. -/
lemma rounds_highest (bound fuel : Nat) (m : Machine) :
    (rounds Limits.highest 1 (always.eval (callByName Limits.highest fuel)) (pure ()) bound).on m =
      none := by
  induction bound generalizing m with
  | zero => rfl
  | succ bound ih =>
    have holds (n : Machine) : (always.eval (callByName Limits.highest fuel)).on n =
      some (.ok (.bool true), n) := rfl
    simp only [rounds, Run.atLine, Run.on_bind, Run.on_update, holds, Value.isTruthy, if_true,
      Run.on_spend_highest, Run.on_attempt, Run.on_pure, Option.map_some, afterRound]
    exact ih _

/-- An endless loop does not end if its limit on steps is the highest number that the counter can
show. -/
theorem run_endless_highest :
    Limits.highest.maxSteps = some 18446744073709551615 ∧
    ∀ fuel, Engine.quiet.machine.run Limits.highest fuel builtinRoot endless = none := by
  refine ⟨rfl, fun fuel => ?_⟩
  have never (n : Machine) : (executeBlock Limits.highest (callByName Limits.highest fuel) fuel
      endless.block).on n = none := by
    simp only [endless, executeBlock, Statement.execute, Run.atLine, Run.on_bind, Run.on_update,
      Run.on_spend_highest, rounds_highest]
  rw [Machine.run, execute, never]
  rfl

end Linework
