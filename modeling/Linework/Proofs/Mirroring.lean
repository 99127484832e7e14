import Linework.Proofs.Parametricity
import Linework.Proofs.Sight

/-!
# Runs that mirror each other

Two actions mirror each other if from related machines they end alike, again on related machines.
Lines may be numbered differently on both sides: the machine never decides anything by a line, it
only takes lines from statements into its reports. `Simulates` says what a relation of machines has
to allow for; the actions that scripts are made of then mirror themselves, apart from those that
look into the scope.
-/

namespace Linework

section

variable (φ : Nat → Nat)

/-- A diagnostic on another line. -/
def Diagnostic.relabel (d : Diagnostic) : Diagnostic := { d with line := φ d.line }

/-- The end of a run on another line. -/
def RunError.relabel : RunError → RunError
  | .strayLoopWord word line => .strayLoopWord word (φ line)
  | .cancelled line reason => .cancelled (φ line) reason

/-- An interrupt on another line. -/
def Interrupt.relabel : Interrupt → Interrupt
  | .exit word line => .exit word (φ line)
  | .yield value line => .yield value (φ line)
  | .abort error => .abort (error.relabel φ)

/-- An event of a run on other lines. -/
def Event.relabel : Event → Event
  | .diagnosed d => .diagnosed (d.relabel φ)
  | .cancelling line reason => .cancelling (φ line) reason
  | e => e

end

/-- The end of a run on its own line. -/
lemma RunError.mapError_relabel_id {α : Type} (r : Except RunError α) :
    r.mapError (relabel id) = r := by
  rcases r with (_ | _) | _ <;> rfl

/-- An interrupt on its own line. -/
lemma Interrupt.mapError_relabel_id {α : Type} (r : Except Interrupt α) :
    r.mapError (relabel id) = r := by
  rcases r with (_ | _ | _ | _) | _ <;> rfl

/-- An event on its own line. -/
lemma Event.relabel_id (e : Event) : e.relabel id = e := by
  cases e <;> rfl

/-- How the end of a body is resolved does not depend on lines. -/
lemma Interrupt.resolve_relabel (φ : Nat → Nat) (r : Except Interrupt Unit) :
    resolve (r.mapError (relabel φ)) = (resolve r).mapError (RunError.relabel φ) := by
  rcases r with (_ | _ | _) | _ <;> rfl

/-- From related machines, neither action ends, or both end with the same result, on corresponding
lines, on related machines. -/
def Mirrors (φ : Nat → Nat) (R : Machine → Machine → Prop) {α : Type} (x x' : Run α) : Prop :=
  ∀ m m', R m m' → Option.Rel
    (fun p p' => p'.1 = p.1.mapError (Interrupt.relabel φ) ∧ R p.2 p'.2) (x.on m) (x'.on m')

/-- Machines that are related and, if a line is given, on that line and on the corresponding one. -/
def OnLine (φ : Nat → Nat) (R : Machine → Machine → Prop) (line? : Option Nat) (m m' : Machine) :
    Prop :=
  R m m' ∧ ∀ line ∈ line?, m.line = line ∧ m'.line = φ line

namespace Mirrors

variable {φ : Nat → Nat} {R : Machine → Machine → Prop} {α β γ : Type}

/-- The two ways in which actions that mirror each other go. -/
lemma cases {x x' : Run α} (h : Mirrors φ R x x') {m m' : Machine} (related : R m m') :
    x.on m = none ∧ x'.on m' = none ∨ ∃ r n n', x.on m = some (r, n) ∧
      x'.on m' = some (r.mapError (Interrupt.relabel φ), n') ∧ R n n' := by
  have ended := h m m' related
  generalize x.on m = o, x'.on m' = o' at ended
  cases ended with
  | none => exact .inl ⟨rfl, rfl⟩
  | @some p p' same =>
    obtain ⟨r, n⟩ := p
    obtain ⟨r', n'⟩ := p'
    obtain ⟨rfl, related⟩ := same
    exact .inr ⟨r, n, n', rfl, rfl, related⟩

/-- Nothing happens. -/
lemma pure (a : α) : Mirrors φ R (pure a : Run α) (pure a) := fun _ _ h => .some ⟨rfl, h⟩

/-- An interrupt on corresponding lines. -/
lemma throw (i : Interrupt) : Mirrors φ R (throw i : Run α) (throw (i.relabel φ)) :=
  fun _ _ h => .some ⟨rfl, h⟩

/-- Actions that do not end. -/
lemma outOfFuel : Mirrors φ R (Run.outOfFuel : Run α) Run.outOfFuel := fun _ _ _ => .none

/-- Changes that keep machines related. -/
lemma update {f f' : Machine → Machine} (h : ∀ m m', R m m' → R (f m) (f' m')) :
    Mirrors φ R (Run.update f) (Run.update f') :=
  fun m m' related => .some ⟨rfl, h m m' related⟩

/-- What is read off related machines. -/
lemma read {g : Machine → α} {g' : Machine → γ} {f : α → Run β} {f' : γ → Run β}
    (h : ∀ m m', R m m' → Mirrors φ R (f (g m)) (f' (g' m'))) :
    Mirrors φ R (Run.read g >>= f) (Run.read g' >>= f') :=
  fun m m' related => h m m' related m m' related

/-- What is the same on related machines. -/
lemma read_same {g : Machine → α} {f f' : α → Run β} (same : ∀ {m m'}, R m m' → g m' = g m)
    (h : ∀ a, Mirrors φ R (f a) (f' a)) :
    Mirrors φ R (Run.read g >>= f) (Run.read g >>= f') := by
  refine read fun m m' related => ?_
  rw [same related]
  exact h (g m)

/-- One action after another. -/
lemma bind {x x' : Run α} {f f' : α → Run β} (h : Mirrors φ R x x')
    (hf : ∀ a, Mirrors φ R (f a) (f' a)) : Mirrors φ R (x >>= f) (x' >>= f') := by
  intro m m' related
  rw [Run.on_bind, Run.on_bind]
  obtain ⟨e, e'⟩ | ⟨r, n, n', e, e', related⟩ := h.cases related
  · rw [e, e']
    exact .none
  · rw [e, e']
    cases r with
    | ok a => exact hf a n n' related
    | error i => exact .some ⟨rfl, related⟩

/-- A loop catches loop words on corresponding lines. -/
lemma catches {body body' : Run Unit} (h : Mirrors φ R body body') :
    Mirrors φ R (Run.attempt body >>= afterRound) (Run.attempt body' >>= afterRound) := by
  intro m m' related
  rw [Run.on_bind, Run.on_bind, Run.on_attempt, Run.on_attempt]
  obtain ⟨e, e'⟩ | ⟨r, n, n', e, e', related⟩ := h.cases related
  · rw [e, e']
    exact .none
  · rw [e, e']
    rcases r with (⟨_ | _, _⟩ | _ | _) | _ <;> exact .some ⟨rfl, related⟩

end Mirrors

/-- What a relation of machines has to allow for: all but the scope, the current lines, the log and
what was written is the same, and what is written is the same from now on. -/
structure Simulates (φ : Nat → Nat) (R : Machine → Machine → Prop) : Prop where
  budget {m m' : Machine} : R m m' → m'.budget = m.budget
  watch {m m' : Machine} : R m m' → m'.watch = m.watch
  random {m m' : Machine} : R m m' → m'.random = m.random
  clock {m m' : Machine} : R m m' → m'.clock = m.clock
  broken {m m' : Machine} : R m m' → m'.console.broken = m.console.broken
  setLine {m m' : Machine} (line : Nat) : R m m' →
    R { m with line := line } { m' with line := φ line }
  setBudget {m m' : Machine} (budget : Budget) : R m m' →
    R { m with budget := budget } { m' with budget := budget }
  setRandom {m m' : Machine} (random : Feed Float) : R m m' →
    R { m with random := random } { m' with random := random }
  setClock {m m' : Machine} (clock : Feed (Option Nat)) : R m m' →
    R { m with clock := clock } { m' with clock := clock }
  log {m m' : Machine} (e : Event) : R m m' →
    R { m with log := m.log.push e } { m' with log := m'.log.push (e.relabel φ) }
  print {m m' : Machine} (text : String) : R m m' →
    R { m with console.lines := m.console.lines.push text }
      { m' with console.lines := m'.console.lines.push text }
  report {m m' : Machine} (d : Diagnostic) : R m m' →
    R { m with diagnostics := m.diagnostics.push d }
      { m' with diagnostics := m'.diagnostics.push (d.relabel φ) }

namespace Simulates

variable {φ : Nat → Nat} {R : Machine → Machine → Prop} (h : Simulates φ R) {line : Nat}
  {line? : Option Nat} {α : Type}

/-- A change that keeps machines related and on their lines. -/
lemma update {f f' : Machine → Machine} (related : ∀ m m', R m m' → R (f m) (f' m'))
    (line : ∀ m, (f m).line = m.line) (line' : ∀ m, (f' m).line = m.line) :
    Mirrors φ (OnLine φ R line?) (Run.update f) (Run.update f') := by
  refine .update fun m m' same => ⟨related m m' same.1, fun l own => ?_⟩
  rw [line, line']
  exact same.2 l own

include h

/-- An event on corresponding lines. -/
lemma record (e : Event) :
    Mirrors φ (OnLine φ R line?) (Run.record e) (Run.record (e.relabel φ)) :=
  update (fun _ _ => h.log e) (fun _ => rfl) fun _ => rfl

/-- A diagnostic on corresponding lines. -/
lemma diagnose (cause : Diagnostic.Cause) :
    Mirrors φ (OnLine φ R (some line)) (Run.diagnose cause) (Run.diagnose cause) := by
  refine .read fun m m' same => ?_
  obtain ⟨here, here'⟩ := same.2 line rfl
  rw [here, here']
  refine (h.record (.diagnosed ⟨line, cause⟩)).bind fun _ => ?_
  exact update (fun _ _ => h.report ⟨line, cause⟩) (fun _ => rfl) fun _ => rfl

/-- A run that is cancelled on corresponding lines. -/
lemma stop (reason : Cancellation) :
    Mirrors φ (OnLine φ R (some line)) (Run.stop reason : Run α) (Run.stop reason) := by
  refine .read fun m m' same => ?_
  obtain ⟨here, here'⟩ := same.2 line rfl
  rw [here, here']
  refine (h.record (.cancelling line reason)).bind fun _ => ?_
  exact .throw (.abort (.cancelled line reason))

/-- A step is let through on both sides or on neither. -/
lemma spend (limits : Limits) :
    Mirrors φ (OnLine φ R (some line)) (Run.spend limits) (Run.spend limits) := by
  refine .read_same (fun same => h.watch same.1) fun watch => ?_
  refine .read_same (fun same => h.budget same.1) fun budget => ?_
  refine .bind (update (fun _ _ => h.setBudget _) (fun _ => rfl) fun _ => rfl) fun _ => ?_
  split
  · exact .pure ()
  · exact h.stop _

/-- A line of output is written on both sides or on neither. -/
lemma prints (text : String) :
    Mirrors φ (OnLine φ R line?) (Run.print text) (Run.print text) := by
  refine .read_same (fun same => h.broken same.1) fun broken => ?_
  split
  · exact h.record .outputLost
  · exact update (fun _ _ => h.print text) (fun _ => rfl) fun _ => rfl

/-- The same random number. -/
lemma draw : Mirrors φ (OnLine φ R line?) Run.draw Run.draw := by
  refine .read_same (fun same => h.random same.1) fun random => ?_
  exact .bind (update (fun _ _ => h.setRandom _) (fun _ => rfl) fun _ => rfl) fun _ => .pure _

/-- The same time. -/
lemma tellTime : Mirrors φ (OnLine φ R line?) Run.tellTime Run.tellTime := by
  refine .read_same (fun same => h.clock same.1) fun clock => ?_
  exact .bind (update (fun _ _ => h.setClock _) (fun _ => rfl) fun _ => rfl) fun _ => .pure _

/-- A built-in function on both sides. -/
lemma call_builtin {f : Function} (builtin : f ∈ Host.builtins) (limits : Limits)
    (invoke invoke' : Invoke) (fuel : Nat) (arguments : List Value) :
    Mirrors φ (OnLine φ R line?) (f.call limits invoke fuel arguments)
      (f.call limits invoke' fuel arguments) := by
  obtain ⟨text, prints⟩ | tells := Linework.call_builtin builtin arguments
  · rw [prints, prints]
    exact (h.prints text).bind fun _ => .pure _
  · rw [tells, tells]
    exact h.tellTime.bind fun _ => .pure _

/-- Calls mirror each other if the bodies do in their own frames. -/
lemma runBody {inner : Machine → Machine → Prop} {limits : Limits} {invoke invoke' : Invoke}
    {fuel : Nat} {frame frame' : Frame} {body body' : Block}
    (enter : ∀ {m m'}, R m m' → inner (m.enter frame) (m'.enter frame'))
    (leave : ∀ {m m' n n'}, R m m' → inner n n' → R (m.leave n) (m'.leave n'))
    (bodies : Mirrors φ (OnLine φ inner none) (executeBlock limits invoke fuel body)
      (executeBlock limits invoke' fuel body')) :
    Mirrors φ (OnLine φ R (some line)) (runBody limits invoke fuel frame body)
      (Linework.runBody limits invoke' fuel frame' body') := by
  intro m m' same
  rw [on_runBody, on_runBody, h.budget same.1]
  split
  · obtain ⟨e, e'⟩ | ⟨r, n, n', e, e', same'⟩ := bodies.cases ⟨enter same.1, nofun⟩
    · rw [e, e']
      exact .none
    · rw [e, e']
      refine .some ⟨?_, leave same.1 same'.1, same.2⟩
      show (Interrupt.resolve (r.mapError (Interrupt.relabel φ))).mapError Interrupt.abort =
        ((Interrupt.resolve r).mapError Interrupt.abort).mapError (Interrupt.relabel φ)
      rw [Interrupt.resolve_relabel]
      cases Interrupt.resolve r <;> rfl
  · exact h.stop _ m m' same

/-- Mirroring passes from the parts of a statement to the whole. -/
lemma carries {p : Pairing} (lines : p.lines = φ) :
    p.Carries fun line? _ _ x x' => Mirrors φ (OnLine φ R line?) x x' where
  sequential _ _ := ⟨.pure, .bind⟩
  weaken _ mirrors := mirrors
  atLine {line _ _ x x'} mirrors := by
    intro m m' same
    have there : OnLine φ R (some line) { m with line := line } { m' with line := φ line } := by
      refine ⟨h.setLine line same.1, ?_⟩
      rintro _ ⟨⟩
      exact ⟨rfl, rfl⟩
    rw [lines]
    obtain ⟨e, e'⟩ | ⟨r, n, n', e, e', same'⟩ := mirrors.cases there
    · rw [Run.on_bind, Run.on_bind, Run.atLine, Run.atLine, Run.on_update, Run.on_update]
      simp only [e, e']
      exact .none
    · rw [Run.on_bind, Run.on_bind, Run.atLine, Run.atLine, Run.on_update, Run.on_update]
      simp only [e, e']
      exact .some ⟨rfl, same'.1, fun _ none => absurd none (Option.not_mem_none _)⟩
  exits word line := by
    rw [lines]
    exact .throw (.exit word line)

omit h in
/-- Mirroring passes from the rounds of a loop to the whole. -/
lemma loops {p : Pairing} (fuel : p.fuel' = p.fuel) :
    p.Loops fun line? _ _ x x' => Mirrors φ (OnLine φ R line?) x x' where
  fuel := fuel
  outOfFuel := .outOfFuel
  catches := .catches

end Simulates

end Linework
