import Linework.Proofs.Laws
import Linework.Proofs.Cancellation

/-!
# Where reports point to

Every diagnostic of a run has the line of a statement that can give rise to it, and a cancelled run
names the line of a statement too. The law `explained` carries this through a run: on the line of a
statement, only what that statement mentions is reported, and the statements of a called body
answer for themselves.
-/

namespace Linework

namespace Statement

/-- Whether a statement, apart from its inner blocks, can give rise to a diagnostic. -/
def Causes (s : Statement) : Diagnostic.Cause → Prop
  | .undeclaredVariable name => ∃ f ∈ s.formula?, name ∈ f.refs
  | .undeclaredFunction name => ∃ f ∈ s.formula?, name ∈ f.callees
  | .undeclaredAssignment name => s.target? = some name
  | .badFormula error source => ∃ f ∈ s.formula?, f.compiled = .error error ∧ f.source = source
  | .unclosedBlock => False

/-- Whether a statement, apart from its inner blocks, calls a function. -/
def Calls (s : Statement) : Prop := ∃ f ∈ s.formula?, f.callees ≠ []

end Statement

namespace Script

/-- A diagnostic with the line of a statement that can give rise to it. -/
def Explains (script : Script) (d : Diagnostic) : Prop :=
  ∃ s ∈ script.statements, s.line = d.line ∧ s.Causes d.cause

/-- A cancellation on the line of a statement, which is one with a call if the calls within calls
are too many. -/
def ExplainsCancellation (script : Script) (line : Nat) (reason : Cancellation) : Prop :=
  ∃ s ∈ script.statements, s.line = line ∧ ∀ limit, reason = .callDepth limit → s.Calls

/-- The functions that a run of the script knows. -/
def Knows (script : Script) (f : Function) : Prop :=
  f ∈ Host.builtins ∨ ∃ d ∈ script.functions, f = d.toFunction

end Script

/-- What a run adds to a machine: no functions, and only diagnostics that the script explains. -/
structure Explained (script : Script) (m n : Machine) : Prop where
  shape : n.scope.shape = m.scope.shape
  reports : ∃ reports, n.diagnostics.toList = m.diagnostics.toList ++ reports ∧
    ∀ d ∈ reports, script.Explains d

namespace Explained

variable {script : Script} {l m n : Machine}

/-- Nothing is reported. -/
lemma quiet (shape : n.scope.shape = m.scope.shape) (same : n.diagnostics = m.diagnostics) :
    Explained script m n :=
  ⟨shape, [], by rw [same, List.append_nil], List.forall_mem_nil _⟩

/-- What is added by two actions is explained if both additions are. -/
lemma trans (h : Explained script l m) (h' : Explained script m n) : Explained script l n := by
  obtain ⟨reports, e, explained⟩ := h.reports
  obtain ⟨reports', e', explained'⟩ := h'.reports
  refine ⟨h'.shape.trans h.shape, reports ++ reports', ?_, ?_⟩
  · rw [e', e, List.append_assoc]
  · exact List.forall_mem_append.mpr ⟨explained, explained'⟩

end Explained

/-- The law of a run. -/
def explained (script : Script) : Law where
  holds m := m.scope.AllFunctions script.Knows
  step := Explained script
  ends i := ∀ line reason, i = .abort (.cancelled line reason) →
    script.ExplainsCancellation line reason
  refl _ := .quiet rfl rfl
  trans := .trans
  keeps h h' := h.of_shape h'.shape

/-- No report depends on the current line alone. -/
lemma lineFree_explained (script : Script) : (explained script).LineFree := by
  intro m line
  show Explained script m _
  exact .quiet rfl rfl

/-- Only diagnostics are to be explained. -/
lemma lenient_explained (script : Script) : (explained script).Lenient :=
  ⟨fun _ _ => .quiet rfl rfl, fun _ _ => .quiet rfl rfl, fun _ _ => .quiet rfl rfl,
    fun _ _ => .quiet rfl rfl⟩

section

variable {script : Script} {s : Statement} {limits : Limits} {invoke : Invoke}

namespace Obeys

/-- On the line of a statement the diagnostics that it can give rise to are explained. -/
lemma diagnose_explained (mem : s ∈ script.statements) (cause : Diagnostic.Cause)
    (causes : s.Causes cause) : Obeys ((explained script).onLine s.line) (Run.diagnose cause) := by
  refine diagnose ?_
  rintro m e ⟨_, line⟩
  refine ⟨⟨rfl, [⟨m.line, cause⟩], Array.toList_push, ?_⟩, rfl⟩
  exact List.forall_mem_singleton.mpr ⟨s, mem, line.symm, causes⟩

/-- A step is refused on the line of the statement that it is for. -/
lemma spend_explained (mem : s ∈ script.statements) :
    Obeys ((explained script).onLine s.line) (Run.spend limits) := by
  refine spend ((lenient_explained script).onLine s.line)
    (fun _ _ _ _ => ⟨.quiet rfl rfl, rfl⟩) ?_
  rintro m reason ⟨_, same⟩ other line _ ⟨⟩
  exact ⟨s, mem, same.symm, fun limit depth => absurd depth (other limit)⟩

/-- A declaration reports nothing. -/
lemma declare_explained {line : Nat} (name : String) (value : Value) :
    Obeys ((explained script).onLine line) (Run.declare name value) :=
  update fun m _ => ⟨.quiet (m.scope.shape_declare name value) rfl, rfl⟩

/-- An assignment reports its own name only. -/
lemma assign_explained (mem : s ∈ script.statements) {name : String} (target : name ∈ s.target?)
    (value : Value) : Obeys ((explained script).onLine s.line) (Run.assign name value) :=
  assign (fun _ _ _ changed => ⟨.quiet (Scope.shape_assign? changed) rfl, rfl⟩)
    (diagnose_explained mem (.undeclaredAssignment name) target)

end Obeys

/-- Calls whose reports are explained, if they are made by a statement of the script. -/
def Invoke.Explained (script : Script) (invoke : Invoke) : Prop :=
  ∀ s ∈ script.statements, ∀ f ∈ s.formula?, ∀ name ∈ f.callees, ∀ arguments,
    Obeys ((explained script).onLine s.line) (invoke name arguments)

/-- What a statement of the script does is explained, if its calls are. -/
lemma Invoke.Explained.allows (h : invoke.Explained script) (mem : s ∈ script.statements) :
    (explained script).Allows limits invoke s where
  spend := .spend_explained mem
  formula f own := by
    refine obeys_formula ⟨?_, ?_, h s mem f own⟩ ?_
    · exact .draw ((lenient_explained script).onLine s.line).random
    · exact fun name ref => .lookup (.diagnose_explained mem _ ⟨f, own, ref⟩)
    · exact fun error fault => .diagnose_explained mem _ ⟨f, own, fault, rfl⟩
  declare name _ value := .declare_explained name value
  store _ target op value :=
    .store (.assign_explained mem target) (.diagnose_explained mem _ target) op value
  yields _ := nofun

/-- What the statements of the script do is explained, if their calls are. -/
lemma Invoke.Explained.block (h : invoke.Explained script) (fuel : Nat) {b : Block}
    (sub : ∀ s ∈ statements b, s ∈ script.statements) :
    Obeys (explained script) (executeBlock limits invoke fuel b) :=
  obeys_block (lineFree_explained script) (fun _ _ => nofun) b fun s mem => h.allows (sub s mem)

/-- The reports of a call are explained by the statements of the body and, if it is refused, by the
statement that calls. -/
lemma Invoke.Explained.call (h : invoke.Explained script) (fuel : Nat)
    (mem : s ∈ script.statements) (calls : s.Calls) {f : Function} (known : script.Knows f)
    (arguments : List Value) :
    Obeys ((explained script).onLine s.line) (f.call limits invoke fuel arguments) := by
  have lenient := (lenient_explained script).onLine s.line
  obtain builtin | ⟨d, defined, rfl⟩ := known
  · exact .call_builtin lenient builtin limits invoke fuel arguments
  · refine .bind (.update fun m _ => lenient.log m _) fun _ => ?_
    refine obeys_runBody (explained script) ?_ ?_ id ?_ (.stop lenient ?_) (h.block fuel ?_)
    · rintro m ⟨holds, _⟩
      refine holds.behind ?_
      rintro _ ⟨⟩
      exact d.toFunction.functions_frame arguments
    · rintro m n _ ⟨shape, reports⟩
      exact ⟨⟨Scope.shape_back shape m.scope.own m.scope.here, reports⟩, rfl⟩
    · rintro word line _ _ _ ⟨⟩
    · -- only the refusal of the call itself is reported on the line of the caller
      rintro m ⟨_, same⟩ line _ ⟨⟩
      exact ⟨s, mem, same.symm, fun _ _ => calls⟩
    · intro t inside
      exact List.mem_append_right _ (List.mem_flatMap.mpr ⟨d, defined, inside⟩)

end

/-- The reports of calls by statements of the script are explained. -/
lemma explained_callByName (script : Script) (limits : Limits) (fuel : Nat) :
    (callByName limits fuel).Explained script := by
  induction fuel with
  | zero => exact fun _ _ _ _ _ _ _ => .outOfFuel
  | succ fuel ih =>
    intro s mem f own name callee arguments
    refine .read fun m holds => ?_
    split
    · next g found =>
      exact ih.call fuel mem ⟨f, own, List.ne_nil_of_mem callee⟩ (holds.1.found found) arguments
    · exact .bind (.diagnose_explained mem _ ⟨f, own, callee⟩) fun _ => .pure _

/-- At the start of a run only the built-in functions and those of the script are in sight. -/
lemma knows_restart (m : Machine) (script : Script) :
    (m.restart builtinRoot script).scope.AllFunctions script.Knows :=
  allFunctions_restart (fun _ => .inl) (fun d own => .inr ⟨d, own, rfl⟩) m

/-- After its warnings a run reports only what a statement on the reported line can give rise to:
it mentions the variable, calls the function, assigns to the name or has the faulty formula. A
cancelled run stands on the line of a statement, which has a call if calls are too deep. -/
theorem run_reports_explained (m : Machine) (limits : Limits) (fuel : Nat) (script : Script)
    {r : Except RunError Value} {n : Machine}
    (ended : m.run limits fuel builtinRoot script = some (r, n)) :
    (∃ reports, n.diagnostics.toList = script.warnings ++ reports ∧
      ∀ d ∈ reports, script.Explains d) ∧
    ∀ line reason, r = .error (.cancelled line reason) →
      script.ExplainsCancellation line reason := by
  obtain ⟨⟨r₁, n₁⟩, at_end, e⟩ := Option.map_eq_some_iff.mp ended
  cases e
  have obeys : Obeys (explained script) (execute limits fuel script.block) :=
    (explained_callByName script limits fuel).block fuel fun s mem => List.mem_append_left _ mem
  obtain ⟨⟨_, reports⟩, ends⟩ := obeys _ r₁ n₁ (knows_restart m script) at_end
  refine ⟨reports, fun line reason cancelled => ?_⟩
  match r₁, ends with
  | .error (.abort error), ends =>
    cases cancelled
    exact ends _ rfl line reason rfl
  | .ok (), _ | .error (.yield _ _), _ | .error (.exit _ _), _ => cases cancelled

/-- A script whose function calls a function that does not exist, and then itself. -/
def lost : Script where
  block := [callLine 1 "down"]
  functions := [⟨"down", [], [callLine 3 "missing", callLine 4 "down"]⟩]
  warnings := []

/-- A function that does not exist is reported where it is called, and the recursion where it goes
too deep. -/
theorem run_reports_explained_lost :
    ∃ n, Engine.quiet.machine.run ⟨none, none, 2⟩ 5 builtinRoot lost =
        some (.error (.cancelled 4 (.callDepth 2)), n) ∧
      n.diagnostics.toList =
        [⟨3, .undeclaredFunction "missing"⟩, ⟨3, .undeclaredFunction "missing"⟩] ∧
      (∀ d ∈ n.diagnostics.toList, lost.Explains d) ∧
      lost.ExplainsCancellation 4 (.callDepth 2) := by
  have fails : failure? (Engine.quiet.machine.run ⟨none, none, 2⟩ 5 builtinRoot lost) =
      some (.cancelled 4 (.callDepth 2), 0) := by decide +kernel
  obtain ⟨n, ended, -⟩ := eq_some_of_failure? fails
  have found : (Engine.quiet.machine.run ⟨none, none, 2⟩ 5 builtinRoot lost).map
      (·.2.diagnostics.toList) =
        some [⟨3, .undeclaredFunction "missing"⟩, ⟨3, .undeclaredFunction "missing"⟩] := by
    decide +kernel
  rw [ended] at found
  obtain ⟨⟨reports, e, explained⟩, cancellation⟩ :=
    run_reports_explained _ ⟨none, none, 2⟩ 5 lost ended
  exact ⟨n, ended, Option.some.inj found, e ▸ explained, cancellation 4 _ rfl⟩

end Linework
