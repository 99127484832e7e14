import Linework.Proofs.Resolution
import Linework.Runner

/-!
# Scripts one after the other

A runner runs all its scripts on one engine. Nothing of a run reaches the next one, but that random
numbers and the time go on: each script gets what it would get from a new engine in the same
surroundings (`tell_alike`). A script without blocks leaves even these alone, so it may as well be
missing. The report of the runner adds up what was told about each script.
-/

namespace Linework

/-- What a user is told about one script. -/
structure Account where
  result : Except ScriptError Value
  lines : List String
  diagnostics : List Diagnostic

/-- The machine of a new engine at the same console, with random numbers and the time as far. -/
def Machine.afresh (m : Machine) : Machine :=
  { (Engine.new m.random m.clock m.watch).machine with console.broken := m.console.broken }

namespace Runner

/-- The lines printed so far. -/
def lines (r : Runner) : List String := r.engine.machine.console.lines.toList

/-- The random numbers, and how many of them have been drawn. -/
def random (r : Runner) : Feed Float := r.engine.machine.random

/-- Runs the text of a script and gives an account of it. The engine has the lines of all runs. It
has the diagnostics of the last one, also when the script is not run at all. -/
def tell (r : Runner) (fuel : Nat) (text : List Char) : Option (Account × Runner) :=
  (r.run fuel text).map fun (result, after) =>
    let diagnostics := match result with
      | .error (.layout _) => []
      | _ => after.engine.machine.diagnostics.toList
    (⟨result, after.lines.drop r.lines.length, diagnostics⟩, after)

/-- Runs the texts of scripts one after the other. -/
def tellAll (r : Runner) (fuel : Nat) : List (List Char) → Option (List Account × Runner)
  | [] => some ([], r)
  | text :: texts =>
    (r.tell fuel text).bind fun first =>
      (first.2.tellAll fuel texts).map fun rest => (first.1 :: rest.1, rest.2)

/-- A runner with a new engine of the same limits in the same surroundings. -/
def afresh (r : Runner) : Runner := start ⟨Host.builtins, r.engine.limits, r.engine.machine.afresh⟩

/-- The runner after a script without blocks. -/
def skip (r : Runner) (text : List Char) : Runner :=
  ⟨r.engine.addLog (Script.parseEvents text), { r.report with hadLayoutError := true }⟩

/-- The end of the run of a script, after the reading of its text. -/
def ended (r : Runner) (fuel : Nat) (text : List Char) (script : Script) :
    Option (Except RunError Value × Machine) :=
  (r.engine.addLog (Script.parseEvents text)).machine.run r.engine.limits fuel r.engine.rootFrame
    script

/-- What is told at the end of a run, and the runner then. -/
def told (r : Runner) (p : Except RunError Value × Machine) : Account × Runner :=
  (⟨p.1.mapError .run, p.2.console.lines.toList.drop r.lines.length, p.2.diagnostics.toList⟩,
    ⟨{ r.engine with machine := p.2 },
      (r.report.addDiagnostics p.2.diagnostics.toList).addResult p.1⟩)

end Runner

/-- The lines of a text form blocks. -/
def hasBlocks (text : List Char) : Bool := (Script.parse text).isOk

/-- A text that was read has blocks. -/
lemma hasBlocks_of_ok {text : List Char} {script : Script} (good : Script.parse text = .ok script) :
    hasBlocks text = true := by
  rw [hasBlocks, good]
  rfl

/-- A text that has no blocks is not read. -/
lemma hasBlocks_eq_false_iff {text : List Char} :
    hasBlocks text = false ↔ ∃ error, Script.parse text = .error error := by
  rw [hasBlocks]
  cases Script.parse text <;> simp [Except.isOk, Except.toBool]

/-- The accounts of the texts that have blocks. -/
def withBlocks (texts : List (List Char)) (accounts : List Account) : List Account :=
  ((texts.zip accounts).filter fun p => hasBlocks p.1).map Prod.snd

/-- The machine has what another one has, after some lines of its own. -/
structure Machine.Follows (m : Machine) (lines : Array String) (n : Machine) : Prop where
  lines : m.console.lines = lines ++ n.console.lines
  diagnostics : m.diagnostics = n.diagnostics
  afresh : m.afresh = n.afresh

section

variable {α β γ δ : Type} {R : α → β → Prop} {o : Option α} {o' : Option β}

/-- Related values are mapped to related values. -/
lemma rel_map {S : γ → δ → Prop} {f : α → γ} {g : β → δ} (related : Option.Rel R o o')
    (maps : ∀ a b, R a b → S (f a) (g b)) : Option.Rel S (o.map f) (o'.map g) := by
  cases related with
  | none => exact .none
  | some ab => exact .some (maps _ _ ab)

/-- What related values have in common. -/
lemma map_eq_of_rel {f : α → γ} {g : β → γ} (related : Option.Rel R o o')
    (same : ∀ a b, R a b → f a = g b) : o.map f = o'.map g := by
  cases related with
  | none => rfl
  | some ab => exact congrArg some (same _ _ ab)

end

section

variable {m m' : Machine}

/-- A run adds lines to those of its machine. Of all the rest it uses the surroundings only. -/
lemma Machine.run_afresh (m : Machine) (limits : Limits) (fuel : Nat) (script : Script) :
    Option.Rel (fun p q => p.1 = q.1 ∧ p.2.Follows m.console.lines q.2)
      (m.run limits fuel builtinRoot script) (m.afresh.run limits fuel builtinRoot script) := by
  -- the new engine has neither the contexts nor the output of earlier runs
  let c : Correspondence := ⟨id, m.scope.contexts.length, 0, m.console.lines, #[]⟩
  have start : (m.restart builtinRoot script).Rewritten c .refl
      (m.afresh.restart builtinRoot script) := by
    refine rewritten_restart rfl rfl (fun name => ?_) (List.map_id _).symm rfl rfl rfl rfl rfl rfl
    exact rewritten_resolve? rfl
  have runs := run_rewritten limits fuel start (relabelBlock_id _).symm
  generalize m.run limits fuel builtinRoot script = o,
    m.afresh.run limits fuel builtinRoot script = o' at runs
  cases runs with
  | none => exact .none
  | some runs =>
    obtain ⟨result, alike⟩ := runs
    obtain ⟨since, lines, lines'⟩ := alike.output
    rw [RunError.mapError_relabel_id] at result
    refine .some ⟨result.symm, ?_, ?_, ?_⟩
    · rw [lines, lines', Array.empty_append]
    · exact (alike.diagnostics.trans (Array.map_id _)).symm
    · rw [Machine.afresh, Machine.afresh, alike.random, alike.clock, alike.watch, alike.broken]

/-- Runs of a script on machines in the same surroundings end alike. -/
lemma Machine.run_alike (same : m.afresh = m'.afresh) (limits : Limits) (fuel : Nat)
    (script : Script) :
    Option.Rel (fun p p' => p.1 = p'.1 ∧
        ∃ n, p.2.Follows m.console.lines n ∧ p'.2.Follows m'.console.lines n)
      (m.run limits fuel builtinRoot script) (m'.run limits fuel builtinRoot script) := by
  have runs := m.run_afresh limits fuel script
  have runs' := m'.run_afresh limits fuel script
  rw [← same] at runs'
  generalize m.run limits fuel builtinRoot script = o,
    m'.run limits fuel builtinRoot script = o',
    m.afresh.run limits fuel builtinRoot script = fresh at runs runs' ⊢
  cases runs with
  | none =>
    cases runs' with
    | none => exact .none
  | some runs =>
    cases runs' with
    | some runs' => exact .some ⟨runs.1.trans runs'.1.symm, _, runs.2, runs'.2⟩

end

namespace Runner

variable {r r' : Runner} {text : List Char} {texts : List (List Char)} {a : Account}
  {accounts : List Account} {error : LayoutError} {script : Script} {fuel : Nat}

/-- A script without blocks is not run. -/
lemma tell_unread (bad : Script.parse text = .error error) :
    r.tell fuel text = some (⟨.error (.layout error), [], []⟩, r.skip text) := by
  simp [tell, run, Engine.parse, bad, lines, Engine.addLog, skip]

/-- What is told about a script that was read is told at the end of its run. -/
lemma tell_read (good : Script.parse text = .ok script) :
    r.tell fuel text = (r.ended fuel text script).map r.told := by
  simp only [tell, run, Engine.parse, good, Engine.run, Option.map_map, ended]
  congr 1
  funext p
  obtain ⟨result, m⟩ := p
  cases result <;> rfl

/-- Either the script has no blocks, or it was run. -/
lemma tell_cases (tells : r.tell fuel text = some (a, r')) :
    (∃ error, Script.parse text = .error error ∧ a = ⟨.error (.layout error), [], []⟩ ∧
      r' = r.skip text) ∨
    ∃ script p, Script.parse text = .ok script ∧ r.ended fuel text script = some p ∧
      a = (r.told p).1 ∧ r' = (r.told p).2 := by
  cases parsed : Script.parse text with
  | error error =>
    rw [tell_unread parsed] at tells
    cases tells
    exact .inl ⟨error, rfl, rfl, rfl⟩
  | ok script =>
    rw [tell_read parsed] at tells
    obtain ⟨p, ended, told⟩ := Option.map_eq_some_iff.mp tells
    exact .inr ⟨script, p, rfl, ended, congrArg Prod.fst told.symm, congrArg Prod.snd told.symm⟩

/-- The host goes on offering the same functions. -/
lemma natives_tell (tells : r.tell fuel text = some (a, r')) :
    r'.engine.natives = r.engine.natives := by
  obtain ⟨error, -, -, rfl⟩ | ⟨script, p, -, -, -, rfl⟩ := tell_cases tells <;> rfl

/-- The first script is run before all others. -/
lemma tellAll_cons (tells : r.tellAll fuel (text :: texts) = some (accounts, r')) :
    ∃ a rest middle, r.tell fuel text = some (a, middle) ∧
      middle.tellAll fuel texts = some (rest, r') ∧ accounts = a :: rest := by
  rw [tellAll] at tells
  obtain ⟨⟨a, middle⟩, first, tells⟩ := Option.bind_eq_some_iff.mp tells
  obtain ⟨⟨rest, last⟩, others, tells⟩ := Option.map_eq_some_iff.mp tells
  cases tells
  exact ⟨a, rest, middle, first, others, rfl⟩

/-- The host goes on offering the same functions. -/
lemma natives_tellAll (tells : r.tellAll fuel texts = some (accounts, r')) :
    r'.engine.natives = r.engine.natives := by
  induction texts generalizing r accounts with
  | nil =>
    cases tells
    rfl
  | cons text texts ih =>
    obtain ⟨a, rest, middle, first, others, rfl⟩ := tellAll_cons tells
    exact (ih others).trans (natives_tell first)

/-! ### What a script gets -/

/-- The run of a script where the host offers the built-in functions only. -/
lemma ended_builtin (builtin : r.engine.natives = Host.builtins) (fuel : Nat)
    (text : List Char) (script : Script) :
    r.ended fuel text script = (r.engine.addLog (Script.parseEvents text)).machine.run
      r.engine.limits fuel builtinRoot script := by
  rw [ended, Engine.rootFrame, builtin, builtinRoot]

/-- The account has what was printed and diagnosed since. -/
lemma told_follows {p : Except RunError Value × Machine} {n : Machine}
    (follows : p.2.Follows r.engine.machine.console.lines n) :
    (r.told p).1 = ⟨p.1.mapError .run, n.console.lines.toList, n.diagnostics.toList⟩ := by
  simp [told, lines, follows.lines, follows.diagnostics]

/-- Runners in the same surroundings draw the same random numbers. -/
lemma random_afresh (same : r.afresh = r'.afresh) : r.random = r'.random := by
  show r.afresh.random = r'.afresh.random
  rw [same]

/-- Runners with the same limits in the same surroundings tell the same about a script. -/
lemma tell_alike (builtin : r.engine.natives = Host.builtins)
    (builtin' : r'.engine.natives = Host.builtins) (same : r.afresh = r'.afresh)
    (fuel : Nat) (text : List Char) :
    Option.Rel (fun p p' => p.1 = p'.1 ∧ p.2.afresh = p'.2.afresh)
      (r.tell fuel text) (r'.tell fuel text) := by
  cases parsed : Script.parse text with
  | error error =>
    rw [tell_unread parsed, tell_unread parsed]
    exact .some ⟨rfl, same⟩
  | ok script =>
    have limits : r.engine.limits = r'.engine.limits := congrArg (·.engine.limits) same
    have machines : (r.engine.addLog (Script.parseEvents text)).machine.afresh =
        (r'.engine.addLog (Script.parseEvents text)).machine.afresh :=
      congrArg (·.engine.machine) same
    have runs := Machine.run_alike machines r.engine.limits fuel script
    rw [← ended_builtin builtin, limits, ← ended_builtin builtin'] at runs
    rw [tell_read parsed, tell_read parsed]
    refine rel_map runs fun p p' ends => ?_
    obtain ⟨result, n, follows, follows'⟩ := ends
    have later := follows.afresh.trans follows'.afresh.symm
    constructor
    · rw [told_follows follows, told_follows follows', result]
    · rw [afresh, afresh, told, told, limits, later]

/-- Scripts without blocks may be left out. -/
lemma tellAll_filter (builtin : r.engine.natives = Host.builtins)
    (builtin' : r'.engine.natives = Host.builtins) (same : r.afresh = r'.afresh)
    (fuel : Nat) (texts : List (List Char)) :
    Option.Rel (fun p p' => p.1 = withBlocks texts p'.1 ∧ p.2.afresh = p'.2.afresh)
      (r.tellAll fuel (texts.filter hasBlocks)) (r'.tellAll fuel texts) := by
  induction texts generalizing r r' with
  | nil => exact .some ⟨rfl, same⟩
  | cons text texts ih =>
    cases parsed : Script.parse text with
    | error error =>
      -- only one side meets the script, which leaves its surroundings alone
      have none := hasBlocks_eq_false_iff.mpr ⟨error, parsed⟩
      have skipped : (r'.skip text).engine.natives = Host.builtins := builtin'
      have rest := ih builtin skipped same
      rw [List.filter_cons_of_neg (by simp [none]), tellAll, tell_unread parsed, Option.bind_some]
      rw [← Option.map_id_apply (x := r.tellAll fuel _)]
      refine rel_map rest fun p p' ends => ⟨?_, ends.2⟩
      simpa [withBlocks, none] using ends.1
    | ok script =>
      have blocks := hasBlocks_of_ok parsed
      have step := tell_alike builtin builtin' same fuel text
      rw [List.filter_cons_of_pos blocks, tellAll, tellAll]
      generalize first : r.tell fuel text = o, first' : r'.tell fuel text = o' at step ⊢
      -- if the run goes on for ever, so do both sides
      cases step with
      | none => exact .none
      | @some p p' step =>
        have rest := ih ((natives_tell first).trans builtin)
          ((natives_tell first').trans builtin') step.2
        refine rel_map rest fun q q' ends => ⟨?_, ends.2⟩
        simpa [withBlocks, blocks, step.1] using ends.1

/-! ### What adds up -/

/-- A run leaves the lines of earlier runs. -/
lemma lines_tell (builtin : r.engine.natives = Host.builtins)
    (tells : r.tell fuel text = some (a, r')) : r'.lines = r.lines ++ a.lines := by
  obtain ⟨error, -, rfl, rfl⟩ | ⟨script, p, -, ended, rfl, rfl⟩ := tell_cases tells
  · exact (List.append_nil _).symm
  · have runs := (r.engine.addLog (Script.parseEvents text)).machine.run_afresh r.engine.limits
      fuel script
    rw [← ended_builtin builtin, ended] at runs
    generalize Machine.run _ _ _ _ script = fresh at runs
    cases runs with
    | some runs =>
      obtain ⟨-, follows⟩ := runs
      rw [told_follows follows]
      simp [lines, told, follows.lines, Engine.addLog]

/-- The lines of all runs follow each other. -/
lemma lines_tellAll (builtin : r.engine.natives = Host.builtins)
    (tells : r.tellAll fuel texts = some (accounts, r')) :
    r'.lines = r.lines ++ accounts.flatMap Account.lines := by
  induction texts generalizing r accounts with
  | nil =>
    cases tells
    exact (List.append_nil _).symm
  | cons text texts ih =>
    obtain ⟨a, rest, middle, first, others, rfl⟩ := tellAll_cons tells
    have last := ih ((natives_tell first).trans builtin) others
    rw [last, lines_tell builtin first, List.flatMap_cons, List.append_assoc]

end Runner

/-- The script was run and has failed. -/
def Account.failed (a : Account) : Bool :=
  match a.result with
  | .error (.run _) => true
  | _ => false

/-- A script has failed if its run has ended with an error. -/
lemma Account.failed_iff (a : Account) :
    a.failed ↔ ∃ error, a.result = .error (.run error) := by
  rw [failed]
  split <;> simp_all

/-- The number of diagnostics of a severity in all accounts. -/
def total (severity : Severity) (accounts : List Account) : Nat :=
  (accounts.flatMap Account.diagnostics).countP (·.severity = severity)

namespace Report

/-- Counting diagnostics adds up those of each severity. -/
lemma addDiagnostics_eq (r : Report) (ds : List Diagnostic) :
    r.addDiagnostics ds =
      { r with
        warnings := r.warnings + ds.countP (·.severity = .warning)
        errors := r.errors + ds.countP (·.severity = .error) } := by
  rw [addDiagnostics]
  induction ds generalizing r with
  | nil => rfl
  | cons d ds ih =>
    rw [List.foldl_cons, ih, addDiagnostic]
    cases kind : d.severity <;> simp [kind] <;> omega

/-- Only a run that has failed is reported. -/
lemma addResult_eq (r : Report) (result : Except RunError Value) :
    r.addResult result = { r with hadRunError := r.hadRunError || !result.isOk } := by
  cases result with
  | ok value => simp [addResult, Except.isOk, Except.toBool]
  | error error => simp [addResult, Except.isOk, Except.toBool]

/-- The report with one more script. -/
def add (r : Report) (text : List Char) (a : Account) : Report where
  hadLayoutError := r.hadLayoutError || !hasBlocks text
  hadRunError := r.hadRunError || a.failed
  warnings := r.warnings + total .warning [a]
  errors := r.errors + total .error [a]

end Report

namespace Runner

variable {r r' : Runner} {text : List Char} {texts : List (List Char)} {a : Account}
  {accounts : List Account} {fuel : Nat}

/-- No diagnostic of an earlier run is counted again. -/
lemma report_tell (tells : r.tell fuel text = some (a, r')) : r'.report = r.report.add text a := by
  obtain ⟨error, bad, rfl, rfl⟩ | ⟨script, p, good, -, rfl, rfl⟩ := tell_cases tells
  · have none := hasBlocks_eq_false_iff.mpr ⟨error, bad⟩
    simp [skip, Report.add, none, Account.failed, total]
  · have blocks := hasBlocks_of_ok good
    have failed : (r.told p).1.failed = !p.1.isOk := by
      obtain ⟨result, m⟩ := p
      cases result <;> rfl
    rw [Report.add, failed, blocks, Bool.not_true, Bool.or_false]
    simp only [told, Report.addResult_eq, Report.addDiagnostics_eq, total, List.flatMap_singleton]

/-- The report holds what was reported before and what is told about each script. -/
lemma report_tellAll (tells : r.tellAll fuel texts = some (accounts, r')) :
    r'.report =
      { hadLayoutError := r.report.hadLayoutError || texts.any (!hasBlocks ·)
        hadRunError := r.report.hadRunError || accounts.any Account.failed
        warnings := r.report.warnings + total .warning accounts
        errors := r.report.errors + total .error accounts } := by
  induction texts generalizing r accounts with
  | nil =>
    cases tells
    simp [total]
  | cons text texts ih =>
    obtain ⟨a, rest, middle, first, others, rfl⟩ := tellAll_cons tells
    rw [ih others, report_tell first]
    simp [Report.add, total, Bool.or_assoc, Nat.add_assoc]

end Runner

/-- Scripts that are run one after the other have nothing to do with each other, but that random
numbers and the time go on. About each one the same is told as by a new engine with the same limits,
whose random numbers are where the scripts before have left them. About the others nothing changes
if those without blocks are left out. The output and the report are what was told about the scripts,
put together. -/
theorem runs_independent (e : Engine) (builtin : e.natives = Host.builtins) (fuel : Nat)
    (texts : List (List Char)) :
    (∀ earlier text later accounts r, texts = earlier ++ text :: later →
      (Runner.start e).tellAll fuel earlier = some (accounts, r) →
      (r.tell fuel text).map (fun p => (p.1, p.2.random)) =
        (r.afresh.tell fuel text).map fun p => (p.1, p.2.random)) ∧
    ((Runner.start e).tellAll fuel (texts.filter hasBlocks)).map (fun p => (p.1, p.2.random)) =
      ((Runner.start e).tellAll fuel texts).map (fun p => (withBlocks texts p.1, p.2.random)) ∧
    ∀ accounts r, (Runner.start e).tellAll fuel texts = some (accounts, r) →
      r.lines = (Runner.start e).lines ++ accounts.flatMap Account.lines ∧
      (r.report.hadLayoutError ↔ ∃ text ∈ texts, ∃ error, Script.parse text = .error error) ∧
      (r.report.hadRunError ↔ ∃ a ∈ accounts, ∃ error, a.result = .error (.run error)) ∧
      r.report.warnings = total .warning accounts ∧
      r.report.errors = total .error accounts := by
  refine ⟨?_, ?_, ?_⟩
  · rintro earlier text later accounts r - told
    -- the engine before a text and a new one differ in what no run with the built-ins can see
    have kept : r.engine.natives = Host.builtins := (Runner.natives_tellAll told).trans builtin
    have fresh : r.afresh.engine.natives = Host.builtins := rfl
    refine map_eq_of_rel (Runner.tell_alike kept fresh rfl fuel text) fun p p' ends => ?_
    exact Prod.ext ends.1 (Runner.random_afresh ends.2)
  · have begins : (Runner.start e).engine.natives = Host.builtins := builtin
    refine map_eq_of_rel (Runner.tellAll_filter begins begins rfl fuel texts) fun p p' ends => ?_
    exact Prod.ext ends.1 (Runner.random_afresh ends.2)
  · intro accounts r told
    have report := Runner.report_tellAll told
    refine ⟨Runner.lines_tellAll builtin told, ?_, ?_, ?_, ?_⟩ <;> rw [report]
    · simp [Runner.start, Report.empty, hasBlocks_eq_false_iff]
    · simp [Runner.start, Report.empty, Account.failed_iff]
    · exact Nat.zero_add _
    · exact Nat.zero_add _

/-- An engine that stops after five steps. -/
def hurried : Engine := Engine.quiet.setLimits ⟨some 5, none, 128⟩

/-- Scripts that end in different ways, of which the first one draws a random number. -/
def mixed : List (List Char) :=
  ["debug(missing)\nlet a = [PI:PI]".toList, "end".toList, "while (true)\nend".toList]

/-- One warning, one script without blocks, one that is stopped; then one more. -/
theorem runs_independent_mixed :
    hurried.natives = Host.builtins ∧
    ∃ accounts r, (Runner.start hurried).tellAll 9 mixed = some (accounts, r) ∧
      r.lines = [""] ∧ r.report = ⟨true, true, 1, 0⟩ ∧ r.random.taken = 1 ∧
      (∃ text ∈ mixed, ∃ error, Script.parse text = .error error) ∧
      (r.tell 9 "break".toList).map (fun p => (p.1, p.2.random)) =
        (r.afresh.tell 9 "break".toList).map fun p => (p.1, p.2.random) := by
  have ends : ((Runner.start hurried).tellAll 9 mixed).map
      (fun p => (p.2.lines, p.2.report, p.2.random.taken)) =
      some ([""], ⟨true, true, 1, 0⟩, 1) := by decide +kernel
  obtain ⟨⟨accounts, r⟩, tells, shown⟩ := Option.map_eq_some_iff.mp ends
  simp only [Prod.mk.injEq] at shown
  obtain ⟨lines, report, drawn⟩ := shown
  obtain ⟨alone, -, -⟩ := runs_independent hurried rfl 9 (mixed ++ ["break".toList])
  obtain ⟨-, -, adds⟩ := runs_independent hurried rfl 9 mixed
  have unread := (adds accounts r tells).2.1.mp (congrArg Report.hadLayoutError report)
  exact ⟨rfl, accounts, r, tells, lines, report, drawn, unread, alone _ _ [] _ _ rfl tells⟩

end Linework
