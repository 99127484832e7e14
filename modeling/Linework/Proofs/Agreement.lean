import Linework.Proofs.Sight

/-!
# Runs that agree

Two actions agree if from each machine they end in the same way, except that the first may stop
before the second does: it may run out of fuel, and it may be cancelled. Where the first is
cancelled, the second goes on from what the first has written. `Agrees` is closed under the
sequences, loops and calls that scripts are made of. The only functions in sight are those of the
script and the built-in ones, so that nothing can catch a cancellation.
-/

namespace Linework

/-- A later machine: nothing that was written is taken back, and of the scope only values change. -/
structure Machine.LeadsTo (m n : Machine) : Prop where
  lines : m.console.lines.toList <+: n.console.lines.toList
  diagnostics : m.diagnostics.toList <+: n.diagnostics.toList
  shape : n.scope.shape = m.scope.shape

namespace Machine.LeadsTo

/-- A machine leads to itself. -/
lemma refl (m : Machine) : m.LeadsTo m :=
  ⟨List.prefix_rfl, List.prefix_rfl, rfl⟩

/-- What comes later than a later machine is later. -/
lemma trans {l m n : Machine} (h : l.LeadsTo m) (h' : m.LeadsTo n) : l.LeadsTo n where
  lines := h.lines.trans h'.lines
  diagnostics := h.diagnostics.trans h'.diagnostics
  shape := h'.shape.trans h.shape

/-- A change that has nothing to do with what is written or in scope. -/
lemma of_eq {m n : Machine} (console : n.console = m.console)
    (diagnostics : n.diagnostics = m.diagnostics) (scope : n.scope = m.scope) : m.LeadsTo n where
  lines := console ▸ List.prefix_rfl
  diagnostics := diagnostics ▸ List.prefix_rfl
  shape := scope ▸ rfl

/-- What is later inside of a call is later after it. -/
lemma leave {m n n' : Machine} (h : n.LeadsTo n') : (m.leave n).LeadsTo (m.leave n') where
  lines := h.lines
  diagnostics := h.diagnostics
  shape := Scope.shape_back h.shape m.scope.own m.scope.here

/-- After a call the machine is later than before it, if the body has led to a later one. -/
lemma of_enter {m n : Machine} {frame : Frame} (h : (m.enter frame).LeadsTo n) :
    m.LeadsTo (m.leave n) where
  lines := h.lines
  diagnostics := h.diagnostics
  shape := Scope.shape_back h.shape m.scope.own m.scope.here

end Machine.LeadsTo

/-- Only functions of the script and built-in ones are in sight. -/
abbrev Machine.IsOrdinary (m : Machine) : Prop := m.scope.AllFunctions Function.IsOrdinary

/-- A later machine has no other functions. -/
lemma Machine.IsOrdinary.later {m n : Machine} (h : m.IsOrdinary) (later : m.LeadsTo n) :
    n.IsOrdinary :=
  Scope.AllFunctions.of_shape h later.shape

/-- No other functions are in sight in the body of a function. -/
lemma Machine.IsOrdinary.enter {m : Machine} (h : m.IsOrdinary) {frame : Frame}
    (plain : frame.functions = []) : (m.enter frame).IsOrdinary := by
  refine Scope.AllFunctions.behind h ?_
  rintro _ ⟨⟩
  exact plain

/-- How an action ends, and on which machine. -/
abbrev Outcome (α : Type) := Option (Except Interrupt α × Machine)

/-- What an action ends with that is cancelled. -/
abbrev Outcome.cancelled {α : Type} (line : Nat) (reason : Cancellation) (n : Machine) :
    Outcome α :=
  some (.error (.abort (.cancelled line reason)), n)

/-- How a round of a loop ends: whether the loop goes on, or with which interrupt. -/
def roundEnd : Except Interrupt Unit → Except Interrupt Bool
  | .ok () | .error (.exit .again _) => .ok true
  | .error (.exit .leave _) => .ok false
  | .error i => .error i

/-- The first outcome is the second, or that of an action that has stopped before: for want of
fuel, if it may be `short`, or cancelled, if the second is `free` of what has cancelled it. -/
inductive Fits (short free : Prop) {α : Type} : Outcome α → Outcome α → Prop where
  | same (o : Outcome α) : Fits short free o o
  | unfinished (h : short) (o' : Outcome α) : Fits short free none o'
  | cut (h : free) {line : Nat} {reason : Cancellation} {n : Machine} {o' : Outcome α}
      (ahead : ∀ {r' n'}, o' = some (r', n') → n.LeadsTo n') :
      Fits short free (.cancelled line reason n) o'

section

variable {short free : Prop} {α β : Type}

/-- Outcomes still fit after more actions, if a cancellation gets through them and they only lead to
later machines. -/
lemma Fits.bind {o o' : Outcome α} {g g' : Except Interrupt α × Machine → Outcome β}
    (h : Fits short free o o') (fits : ∀ p, o' = some p → Fits short free (g p) (g' p))
    (passes : ∀ line reason n,
      g (.error (.abort (.cancelled line reason)), n) = .cancelled line reason n)
    (leads : ∀ p r' n', o' = some p → g' p = some (r', n') → p.2.LeadsTo n') :
    Fits short free (o.bind g) (o'.bind g') := by
  cases h with
  | same =>
    cases o with
    | none => exact .same _
    | some p => exact fits p rfl
  | unfinished h => exact .unfinished h _
  | @cut h line reason n _ ahead =>
    rw [Option.bind_some, passes]
    refine .cut h ?_
    intro r' n' e
    obtain ⟨p, ended, e⟩ := Option.bind_eq_some_iff.mp e
    exact (ahead ended).trans (leads p r' n' ended e)

/-- Outcomes still fit if a cancellation stays one and later machines stay later. -/
lemma Fits.map {o o' : Outcome α} {g : Except Interrupt α → Except Interrupt β}
    {leave : Machine → Machine} (h : Fits short free o o')
    (passes : ∀ line reason, g (.error (.abort (.cancelled line reason))) =
      .error (.abort (.cancelled line reason)))
    (ahead : ∀ {n n'}, n.LeadsTo n' → (leave n).LeadsTo (leave n')) :
    Fits short free (o.map fun (r, n) => (g r, leave n)) (o'.map fun (r, n) => (g r, leave n)) := by
  cases h with
  | same => exact .same _
  | unfinished h => exact .unfinished h _
  | @cut h line reason n o' ahead' =>
    simp only [Option.map_some, passes]
    refine .cut h ?_
    intro r' n' e
    obtain ⟨⟨r, n₁⟩, ended, e⟩ := Option.map_eq_some_iff.mp e
    cases e
    exact ahead (ahead' ended)

/-- The first action ends like the second or stops before it, on all machines with ordinary
functions. -/
structure Agrees (short free : Prop) {α : Type} (x x' : Run α) : Prop where
  leads : ∀ {m r n}, m.IsOrdinary → x'.on m = some (r, n) → m.LeadsTo n
  fits : ∀ {m}, m.IsOrdinary → Fits short free (x.on m) (x'.on m)

namespace Agrees

/-- An action agrees with itself. -/
lemma refl {x : Run α} (leads : ∀ {m r n}, m.IsOrdinary → x.on m = some (r, n) → m.LeadsTo n) :
    Agrees short free x x :=
  ⟨leads, fun _ => .same _⟩

/-- Nothing happens. -/
lemma pure (a : α) : Agrees short free (pure a : Run α) (pure a) := by
  apply refl
  intro m r n _ e
  cases e
  exact .refl m

/-- The same interrupt. -/
lemma throw (i : Interrupt) : Agrees short free (throw i : Run α) (throw i) := by
  apply refl
  intro m r n _ e
  cases e
  exact .refl m

/-- The same change. -/
lemma update {f : Machine → Machine} (h : ∀ m : Machine, m.LeadsTo (f m)) :
    Agrees short free (Run.update f) (Run.update f) := by
  apply refl
  intro m r n _ e
  cases e
  exact h m

/-- How a sequence goes on after its first action. -/
def next (f : α → Run β) : Except Interrupt α × Machine → Outcome β
  | (.ok a, n) => (f a).on n
  | (.error i, n) => some (.error i, n)

/-- A sequence as an outcome and how it goes on. -/
lemma on_bind_next (x : Run α) (f : α → Run β) (m : Machine) :
    (x >>= f).on m = (x.on m).bind (next f) := by
  rw [Run.on_bind]
  cases x.on m with
  | none => rfl
  | some p =>
    obtain ⟨r, n⟩ := p
    cases r <;> rfl

/-- One action after another. -/
lemma bind {x x' : Run α} {f f' : α → Run β} (h : Agrees short free x x')
    (hf : ∀ a, Agrees short free (f a) (f' a)) : Agrees short free (x >>= f) (x' >>= f') := by
  -- the second action alone, which may go on after the first one is cancelled
  have leads_next {m p r n} (ordinary : m.IsOrdinary) (ended : x'.on m = some p)
      (e : next f' p = some (r, n)) : p.2.LeadsTo n := by
    obtain ⟨r₁, n₁⟩ := p
    cases r₁ with
    | ok a => exact (hf a).leads (ordinary.later (h.leads ordinary ended)) e
    | error i =>
      cases e
      exact .refl _
  constructor
  · intro m r n ordinary e
    rw [on_bind_next] at e
    obtain ⟨p, ended, e⟩ := Option.bind_eq_some_iff.mp e
    exact (h.leads ordinary ended).trans (leads_next ordinary ended e)
  · intro m ordinary
    rw [on_bind_next, on_bind_next]
    refine (h.fits ordinary).bind ?_ (fun _ _ _ => rfl) fun _ _ _ => leads_next ordinary
    rintro ⟨r, n⟩ ended
    cases r with
    | ok a => exact (hf a).fits (ordinary.later (h.leads ordinary ended))
    | error i => exact .same _

/-- What is read off the machine may be used to show that the rest agrees. -/
lemma read {g : Machine → α} {f f' : α → Run β}
    (h : ∀ m, m.IsOrdinary → Agrees short free (f (g m)) (f' (g m))) :
    Agrees short free (Run.read g >>= f) (Run.read g >>= f') where
  leads {m _ _} ordinary e := (h m ordinary).leads ordinary e
  fits {m} ordinary := (h m ordinary).fits ordinary

/-- What happens at the end of a round keeps the agreement, since no loop holds a cancellation
back. -/
lemma catches {x x' : Run Unit} (h : Agrees short free x x') :
    Agrees short free (Run.attempt x >>= afterRound) (Run.attempt x' >>= afterRound) := by
  have on_catch (x : Run Unit) (m : Machine) : (Run.attempt x >>= afterRound).on m =
      (x.on m).map fun p => (roundEnd p.1, p.2) := by
    rw [Run.on_bind, Run.on_attempt]
    rcases x.on m with _ | ⟨(i | _), n⟩
    · rfl
    · rcases i with ⟨_ | _, _⟩ | _ | _ <;> rfl
    · rfl
  constructor
  · intro m r n ordinary e
    rw [on_catch] at e
    obtain ⟨⟨r₁, n₁⟩, ended, e⟩ := Option.map_eq_some_iff.mp e
    cases e
    exact h.leads ordinary ended
  · intro m ordinary
    rw [on_catch, on_catch]
    exact (h.fits ordinary).map (fun _ _ => rfl) id

/-- An event is written into the log. -/
lemma record (e : Event) : Agrees short free (Run.record e) (Run.record e) :=
  update fun _ => .of_eq rfl rfl rfl

/-- A line becomes the current one. -/
lemma atLine (line : Nat) : Agrees short free (Run.atLine line) (Run.atLine line) :=
  update fun _ => .of_eq rfl rfl rfl

/-- A diagnostic is recorded. -/
lemma diagnose (cause : Diagnostic.Cause) :
    Agrees short free (Run.diagnose cause) (Run.diagnose cause) := by
  refine read fun m _ => (record _).bind fun _ => update fun n => ⟨List.prefix_rfl, ?_, rfl⟩
  rw [Array.toList_push]
  exact List.prefix_append _ _

/-- Both are cancelled. -/
lemma stop (reason : Cancellation) :
    Agrees short free (Run.stop reason : Run α) (Run.stop reason) :=
  read fun _ _ => (record _).bind fun _ => throw _

/-- A line is written, or lost. -/
lemma print (line : String) : Agrees short free (Run.print line) (Run.print line) := by
  refine read fun m _ => ?_
  split
  · exact record _
  · refine update fun n => ⟨?_, List.prefix_rfl, rfl⟩
    rw [Array.toList_push]
    exact List.prefix_append _ _

/-- A random number is drawn. -/
lemma draw : Agrees short free Run.draw Run.draw := by
  refine read fun m _ => ?_
  exact bind (update fun _ => .of_eq rfl rfl rfl) fun _ => pure _

/-- A name is looked up, or reported. -/
lemma lookup (name : String) : Agrees short free (Run.lookup name) (Run.lookup name) := by
  refine read fun m _ => ?_
  split
  · exact pure _
  · exact (diagnose _).bind fun _ => pure _

/-- A name is declared. -/
lemma declare (name : String) (value : Value) :
    Agrees short free (Run.declare name value) (Run.declare name value) :=
  update fun m => ⟨List.prefix_rfl, List.prefix_rfl, m.scope.shape_declare name value⟩

/-- A variable is changed, or its name reported. -/
lemma assign (name : String) (value : Value) :
    Agrees short free (Run.assign name value) (Run.assign name value) := by
  apply refl
  intro m r n ordinary e
  rw [Run.assign, Run.on_bind, Run.on_read] at e
  cases changed : m.scope.assign? name value with
  | none =>
    simp only [changed] at e
    exact (diagnose _ : Agrees short free _ _).leads ordinary e
  | some scope =>
    simp only [changed, Run.on_update] at e
    cases e
    exact ⟨List.prefix_rfl, List.prefix_rfl, Scope.shape_assign? changed⟩

/-- A variable is changed by an operator, or its name reported. -/
lemma store (name : String) (op : AssignOp) (value : Value) :
    Agrees short free (Run.store name op value) (Run.store name op value) := by
  unfold Run.store
  split
  · exact assign name value
  · refine read fun m _ => ?_
    split
    · exact assign name _
    · exact diagnose _

/-- The time is asked for. -/
lemma tellTime : Agrees short free Run.tellTime Run.tellTime := by
  refine read fun m _ => ?_
  exact bind (update fun _ => .of_eq rfl rfl rfl) fun _ => pure _

end Agrees

end

end Linework
