import Linework.Proofs.Universal
import Linework.Proofs.Points

/-!
# From part to part

How a task goes through its parts, said once for all tasks and all universal laws. From it follows
what a law says about the points of a run: how a part begins, that it ends before the next one
begins, and that it ends if the task does.
-/

namespace Linework

/-- Whether a step is paid before a part of a task begins: the next statement of a block, or a round
of a loop. -/
def Point.pays (p q : Point) : Bool :=
  match p.task, q.task with
  | .block _, .statement _ | .rounds _ _ _ _, .block _ => true
  | _, _ => false

/-- How a part begins where its task has come to a machine: with changes that a law allows, the last
of which is a step if the task has to pay. -/
structure Begins (law : Law) (limits : Limits) (p : Point) (m : Machine) (q : Point) : Prop where
  step : law.step m q.machine
  other : q.task.isBody → p.task.isCall
  paid : p.pays q → ∃ m', law.step m m' ∧ (Run.spend limits).on m' = some (.ok (), q.machine)

/-- The way of a task through its parts, from a machine to the one on which the task ends, if it
does. Between the parts there are only changes that a law allows. -/
inductive Passage (law : Law) (limits : Limits) (p : Point) :
    Machine → List Point → Option Machine → Prop where
  | close {m n : Machine} (step : law.step m n) : Passage law limits p m [] (some n)
  | halt {m : Machine} : Passage law limits p m [] none
  | part {m n : Machine} {q : Point} {qs : List Point} {o : Option Machine}
      (begins : Begins law limits p m q) (ended : q.finish? limits = some n)
      (rest : Passage law limits p n qs o) : Passage law limits p m (q :: qs) o
  | stuck {m : Machine} {q : Point} (begins : Begins law limits p m q)
      (unfinished : q.finish? limits = none) : Passage law limits p m [q] none

/-- A law that has nothing to say about the frame and the context. -/
def Law.PlaceFree (law : Law) : Prop := ∀ m own here, law.step m (m.behind own here)

/-- A law that allows a call to begin and to end. -/
structure Law.Spanning (law : Law) : Prop where
  enter (m : Machine) (frame : Frame) : law.step m (m.enter frame)
  leave (m n : Machine) : law.step n (m.leave n)

section

variable {law : Law} {limits : Limits} {p q : Point} {l m n : Machine}

/-- A part that is no body and pays nothing begins after a step. -/
lemma Begins.of_step (step : law.step m q.machine) (other : q.task.isBody = false)
    (free : p.pays q = false) : Begins law limits p m q where
  step := step
  other body := absurd body (by simp [other])
  paid pays := absurd pays (by simp [free])

/-- Such a part may begin at once. -/
lemma Begins.here {task : Task} {fuel : Nat} (other : task.isBody = false)
    (free : p.pays ⟨task, fuel, m⟩ = false) : Begins law limits p m ⟨task, fuel, m⟩ :=
  .of_step (law.refl m) other free

/-- A step before all others. -/
lemma Begins.prepend (step : law.step l m) (h : Begins law limits p m q) :
    Begins law limits p l q where
  step := law.trans step h.step
  other := h.other
  paid pays := by
    obtain ⟨m', step', paid⟩ := h.paid pays
    exact ⟨m', law.trans step step', paid⟩

namespace Passage

variable {qs : List Point} {o : Option Machine} {α β : Type} {x : Run α} {f : α → Run β}
  {next : α → Machine → List Point}

/-- A step before the way begins. -/
lemma prepend (step : law.step l m) (h : Passage law limits p m qs o) :
    Passage law limits p l qs o := by
  cases h with
  | close step' => exact .close (law.trans step step')
  | halt => exact .halt
  | part begins ended rest => exact .part (begins.prepend step) ended rest
  | stuck begins unfinished => exact .stuck (begins.prepend step) unfinished

/-- A task that has only one part ends where the part does, up to what the task puts back. -/
lemma within (begins : Begins law limits p m q) {back : Machine → Machine}
    (step : ∀ n, law.step n (back n)) :
    Passage law limits p m [q] ((q.finish? limits).map back) := by
  cases ended : q.finish? limits with
  | none => exact .stuck begins ended
  | some n => exact .part begins ended (.close (step n))

/-- The way of a task with one part. -/
lemma only (begins : Begins law limits p m q) :
    Passage law limits p m [q] (q.finish? limits) := by
  have h : Passage law limits p m [q] ((q.finish? limits).map id) := within begins law.refl
  rwa [Option.map_id_fun, id] at h

/-- An action without parts. -/
lemma done (holds : ∀ m, law.holds m) (h : Obeys law x) :
    Passage law limits p m [] ((x.on m).map Prod.snd) := by
  cases ended : x.on m with
  | none => exact .halt
  | some r => exact .close (h m r.1 r.2 (holds m) ended).1

/-- An action without parts, and what follows. -/
lemma own (holds : ∀ m, law.holds m) (h : Obeys law x)
    (rest : ∀ a n, x.on m = some (.ok a, n) →
      Passage law limits p n (next a n) (((f a).on n).map Prod.snd)) :
    Passage law limits p m (x.after m next) (((x >>= f).on m).map Prod.snd) := by
  rw [Run.on_bind, Run.after]
  cases ended : x.on m with
  | none => exact .halt
  | some p =>
    obtain ⟨r, n⟩ := p
    have step : law.step m n := (h m r n (holds m) ended).1
    cases r with
    | ok a => exact (rest a n ended).prepend step
    | error i => exact .close step

/-- A part, and what follows if it ends with a value. -/
lemma seq (begins : Begins law limits p m q)
    (task : q.finish? limits = (x.on q.machine).map Prod.snd)
    (rest : ∀ a n, x.on q.machine = some (.ok a, n) →
      Passage law limits p n (next a n) (((f a).on n).map Prod.snd)) :
    Passage law limits p m (q :: x.after q.machine next)
      (((x >>= f).on q.machine).map Prod.snd) := by
  rw [Run.on_bind, Run.after]
  cases ended : x.on q.machine with
  | none =>
    rw [ended] at task
    exact .stuck begins task
  | some r =>
    obtain ⟨r, n⟩ := r
    rw [ended] at task
    cases r with
    | ok a => exact .part begins task (rest a n ended)
    | error i => exact .part begins task (.close (law.refl n))

/-- The last part, and what follows without parts. -/
lemma last (begins : Begins law limits p m q)
    (task : q.finish? limits = (x.on q.machine).map Prod.snd)
    (rest : ∀ a n, Passage law limits p n [] (((f a).on n).map Prod.snd)) :
    Passage law limits p m [q] (((x >>= f).on q.machine).map Prod.snd) := by
  have empty : x.after q.machine (fun _ _ => ([] : List Point)) = [] := by
    rw [Run.after]
    split <;> rfl
  have h : Passage law limits p m (q :: x.after q.machine fun _ _ => [])
      (((x >>= f).on q.machine).map Prod.snd) := seq begins task fun a n _ => rest a n
  rwa [empty] at h

/-- What is done in another context is a part there, and what follows begins where it was. -/
lemma detour {f : Except Interrupt α → Run β} {next : Except Interrupt α → Machine → List Point}
    (places : law.PlaceFree) {here : Nat}
    (start : q.machine = m.behind none here) (other : q.task.isBody = false)
    (free : p.pays q = false) (task : q.finish? limits = (x.on q.machine).map Prod.snd)
    (rest : ∀ r n, Passage law limits p n (next r n) (((f r).on n).map Prod.snd)) :
    Passage law limits p m (q :: (Run.inside none here x).after m next)
      (((Run.inside none here x >>= f).on m).map Prod.snd) := by
  have begins : Begins law limits p m q := .of_step (start ▸ places m none here) other free
  rw [Run.on_bind, Run.after, Run.on_inside]
  rw [start] at task
  cases ended : x.on (m.behind none here) with
  | none =>
    rw [ended] at task
    exact .stuck begins task
  | some r =>
    obtain ⟨r, n⟩ := r
    rw [ended] at task
    exact .part begins task ((rest r _).prepend (places n _ _))

end Passage

end

/-- How a round has ended is seen without a change to the machine. -/
lemma snd_attempt_afterRound (x : Run Unit) (m : Machine) :
    ((Run.attempt x >>= afterRound).on m).map Prod.snd = (x.on m).map Prod.snd := by
  rw [Run.on_bind, Run.on_attempt]
  rcases x.on m with _ | ⟨(⟨_ | _, _⟩ | _ | _) | _, n⟩ <;> rfl

/-- How the work of a host function has ended is seen without a change to the machine. -/
lemma snd_inside_ofExcept {α : Type} (own : Option Frame) (here : Nat) (x : Run α) (m : Machine) :
    ((Run.inside own here x >>= Run.ofExcept).on m).map Prod.snd =
      (x.on (m.behind own here)).map ((·.behind m.scope.own m.scope.here) ∘ Prod.snd) := by
  rw [Run.on_bind, Run.on_inside]
  rcases x.on (m.behind own here) with _ | ⟨_ | _, n⟩ <;> rfl

section

variable {law : Law} {limits : Limits} {fuel : Nat} {m : Machine} (u : law.Universal limits)

include u

open Point

/-- Expressions. -/
lemma passage_expr (e : Expr) :
    Passage law limits ⟨.expr e, fuel, m⟩ m (partsOfExpr limits fuel m e)
      (finish? limits ⟨.expr e, fuel, m⟩) := by
  cases e with
  | literal v => exact .done u.holds (.pure v)
  | ref name => exact .done u.holds (.of_onLine fun _ => .lookup (u.diagnose _))
  | group inner => exact .only (.here rfl rfl)
  | unary op right => exact .last (.here rfl rfl) rfl fun _ _ => .done u.holds (.pure _)
  | binary left op right =>
    refine .seq (.here rfl rfl) rfl fun _ _ _ => ?_
    exact .last (.here rfl rfl) rfl fun _ _ => .done u.holds (.pure _)
  | call callee arguments =>
    exact .seq (.here rfl rfl) rfl fun _ _ _ => .only (.here rfl rfl)
  | range low high mode =>
    refine .seq (.here rfl rfl) rfl fun _ _ _ => .last (.here rfl rfl) rfl fun _ _ => ?_
    exact .done u.holds (.bind (.of_onLine fun _ => u.draw) fun _ => .pure _)
  | logic first rest =>
    exact .seq (.here rfl rfl) rfl fun _ _ _ => .only (.here rfl rfl)

/-- Expressions from left to right. -/
lemma passage_exprs (es : List Expr) :
    Passage law limits ⟨.exprs es, fuel, m⟩ m (partsOfExprs limits fuel m es)
      (finish? limits ⟨.exprs es, fuel, m⟩) := by
  cases es with
  | nil => exact .done u.holds (.pure [])
  | cons e es =>
    refine .seq (.here rfl rfl) rfl fun _ _ _ => ?_
    exact .last (.here rfl rfl) rfl fun _ _ => .done u.holds (.pure _)

/-- The rest of a chain of conditions, which ends where it is decided. -/
lemma passage_chain (sofar : Bool) (rest : List (Token × Expr)) :
    Passage law limits ⟨.chain sofar rest, fuel, m⟩ m (partsOfChain limits fuel m sofar rest)
      (finish? limits ⟨.chain sofar rest, fuel, m⟩) := by
  cases rest with
  | nil => exact .done u.holds (.pure _)
  | cons link rest =>
    obtain ⟨connective, e⟩ := link
    rw [partsOfChain, finish?]
    split
    · next decided =>
      rw [evalLogic_decided _ decided]
      exact .done u.holds (.pure _)
    · next undecided =>
      obtain rfl : sofar = !connective.disjoins := Bool.eq_not.mpr (Ne.symm undecided)
      rw [evalLogic_undecided _ rfl]
      refine .seq (.here rfl rfl) rfl fun v n _ => ?_
      split
      · exact .done u.holds (.pure _)
      · exact .only (.here rfl rfl)

/-- Formulas. -/
lemma passage_formula (f : Formula) :
    Passage law limits ⟨.formula f, fuel, m⟩ m (parts limits ⟨.formula f, fuel, m⟩)
      (finish? limits ⟨.formula f, fuel, m⟩) := by
  obtain ⟨source, compiled⟩ := f
  cases compiled with
  | ok e => exact .only (.here rfl rfl)
  | error e =>
    exact .done u.holds (.bind (.of_onLine fun _ => u.diagnose _) fun _ => .pure _)

/-- Statements of one line, from where their line is the current one. -/
lemma passage_instruction (line : Nat) (i : Instruction) :
    Passage law limits ⟨.statement (.plain line i), fuel, m⟩ { m with line := line }
      (i.formula?.toList.map fun f => ⟨.formula f, fuel, { m with line := line }⟩)
      (((i.execute (callByName limits fuel) line).on { m with line := line }).map Prod.snd) := by
  have optional {β : Type} (value : Option Formula) (f : Value → Run β)
      (h : ∀ v, Obeys law (f v)) :
      Passage law limits ⟨.statement (.plain line i), fuel, m⟩ { m with line := line }
        (value.toList.map fun f => ⟨.formula f, fuel, { m with line := line }⟩)
        (((Formula.evalOptional (callByName limits fuel) value >>= f).on
          { m with line := line }).map Prod.snd) := by
    cases value with
    | none => exact .done u.holds (h .undefined)
    | some formula => exact .last (.here rfl rfl) rfl fun v _ => .done u.holds (h v)
  cases i with
  | compute formula => exact optional (some formula) _ fun _ => .pure _
  | declare name value => exact optional value _ fun v => .of_onLine fun _ => u.declare name v
  | assign name op value =>
    exact optional (some value) _ fun v => .of_onLine fun _ => u.store name op v
  | yield value => exact optional value _ fun v => .throw (u.ends _)
  | exit word => exact .done u.holds (.throw (u.ends _))

/-- Statements. -/
lemma passage_statement (s : Statement) :
    Passage law limits ⟨.statement s, fuel, m⟩ m (partsOfStatement limits fuel m s)
      (finish? limits ⟨.statement s, fuel, m⟩) := by
  cases s with
  | plain line instruction =>
    exact (passage_instruction u line instruction).prepend (u.lineFree m line)
  | branch line condition yes no =>
    refine Passage.prepend (u.lineFree m line) (.seq (.here rfl rfl) rfl fun v n _ => ?_)
    split
    · exact .only (.here rfl rfl)
    · cases no with
      | none => exact .done u.holds (.pure ())
      | some block => exact .only (.here rfl rfl)
  | loop line condition body => exact .only (.here rfl rfl)

/-- A step is paid, and then a part begins. -/
lemma Passage.pay {p : Point} {task : Task} {α β : Type} {x : Run α} {f : α → Run β}
    {next : α → Machine → List Point} (other : task.isBody = false)
    (finish : ∀ n, finish? limits ⟨task, fuel, n⟩ = (x.on n).map Prod.snd)
    (rest : ∀ a n, Passage law limits p n (next a n) (((f a).on n).map Prod.snd)) :
    Passage law limits p m
      ((Run.spend limits).after m fun _ n => ⟨task, fuel, n⟩ :: x.after n next)
      (((Run.spend limits >>= fun _ => x >>= f).on m).map Prod.snd) := by
  have obeys : Obeys law (Run.spend limits) := .of_onLine fun _ => u.regular.spend
  rw [Run.on_bind, Run.after]
  cases ended : (Run.spend limits).on m with
  | none => exact .halt
  | some r =>
    obtain ⟨r, n⟩ := r
    have step : law.step m n := (obeys m r n (u.holds m) ended).1
    cases r with
    | ok =>
      have begins : Begins law limits p m ⟨task, fuel, n⟩ :=
        ⟨step, fun body => absurd body (by simp [other]), fun _ => ⟨m, law.refl m, ended⟩⟩
      exact .seq begins (finish n) fun a n _ => rest a n
    | error i => exact .close step

/-- Blocks. -/
lemma passage_block (b : Block) :
    Passage law limits ⟨.block b, fuel, m⟩ m (partsOfBlock limits fuel m b)
      (finish? limits ⟨.block b, fuel, m⟩) := by
  cases b with
  | nil => exact .done u.holds (.pure ())
  | cons s rest =>
    refine Passage.prepend (u.lineFree m s.line) (.pay u rfl (fun _ => rfl) fun _ _ => ?_)
    exact .only (.here rfl rfl)

/-- The rounds of a loop. -/
lemma passage_rounds (line : Nat) (condition : Formula) (body : Block) (bound : Nat) :
    Passage law limits ⟨.rounds line condition body bound, fuel, m⟩ m
      (partsOfRounds limits fuel m line condition body bound)
      (finish? limits ⟨.rounds line condition body bound, fuel, m⟩) := by
  cases bound with
  | zero => exact .halt
  | succ bound =>
    refine Passage.prepend (u.lineFree m line) (.seq (.here rfl rfl) rfl fun v n _ => ?_)
    split
    · -- how the round has ended is looked at before the next one is a part
      simp only [← bind_assoc (Run.attempt _)]
      refine .pay u rfl (fun n => (snd_attempt_afterRound _ n).symm) fun again n => ?_
      split
      · exact .only (.here rfl rfl)
      · exact .done u.holds (.pure ())
    · exact .done u.holds (.pure ())

/-- The way of the work of a host function. -/
lemma passage_host (places : law.PlaceFree) (p : HostProgram) :
    Passage law limits ⟨.host p, fuel, m⟩ m (partsOfHost limits fuel m p)
      (finish? limits ⟨.host p, fuel, m⟩) := by
  cases p with
  | done value => exact .done u.holds (.pure value)
  | hang => exact .halt
  | ask request next =>
    exact .own u.holds (.of_onLine fun _ => u.answer request (.inr u.opens)) fun _ _ _ =>
      .only (.here rfl rfl)
  | evaluate context source next =>
    exact .detour places rfl rfl rfl rfl fun _ _ => .only (.here rfl rfl)
  | call context name arguments next =>
    exact .detour places rfl rfl rfl rfl fun _ _ => .only (.here rfl rfl)
  | offer context name params program next =>
    have registers : Obeys law (Run.register context ⟨name, params, .host program⟩) :=
      .update fun m _ => u.opens m _
    rw [partsOfHost, finish?, HostProgram.perform]
    exact .own u.holds registers fun _ _ _ => .only (.here rfl rfl)

/-- A call is one part, in a frame of its own. -/
lemma passage_call (places : law.PlaceFree) (spans : law.Spanning) (name : String)
    (arguments : List Value) :
    Passage law limits ⟨.call name arguments, fuel, m⟩ m (partsOfCall limits m name arguments fuel)
      (finish? limits ⟨.call name arguments, fuel, m⟩) := by
  cases fuel with
  | zero => exact .halt
  | succ fuel =>
    simp only [partsOfCall, finish?, callByName, Run.on_bind, Run.on_read]
    split
    · next found =>
      rw [found]
      exact .done u.holds (.bind (.of_onLine fun _ => u.diagnose _) fun _ => .pure _)
    · next f found =>
      simp only [found, Function.call]
      cases f.body with
      | host program =>
        -- a host function works in the root context, and the caller is back in its place after it
        have begins : Begins law limits ⟨.call name arguments, fuel + 1, m⟩ m
            ⟨.host (program m.scope.root arguments), fuel, m.behind none m.scope.root⟩ :=
          .of_step (places m _ _) rfl rfl
        have h := Passage.within begins fun n => places n m.scope.own m.scope.here
        rw [finish?, Option.map_map] at h
        rw [Run.on_bind, Run.on_read]
        simp only [snd_inside_ofExcept]
        exact h
      | script body =>
        have other : ∀ line limit, Event.calling f.name arguments.length ≠
            .cancelling line (.stepLimit limit) := by
          rintro _ _ ⟨⟩
        refine .own u.holds (.update fun m _ => u.log m _ other) fun _ n _ => ?_
        simp only [on_runBody]
        split
        -- the body starts one call deeper, and leaving takes that back
        · have begins : Begins law limits ⟨.call name arguments, fuel + 1, m⟩ n
              ⟨.body body, fuel, n.enter (f.frame arguments)⟩ :=
            ⟨spans.enter n _, fun _ => rfl, fun pays => absurd pays Bool.false_ne_true⟩
          have h := Passage.within begins fun n' => spans.leave n n'
          rw [finish?, Option.map_map] at h
          rw [Option.map_map]
          exact h
        · exact .done u.holds (.of_onLine fun _ => u.regular.refused_on)

/-- The way of any task through its parts. Only a call asks for more than a universal law that has
nothing to say about places. -/
lemma passage (places : law.PlaceFree) {p : Point} (spans : p.task.isCall → law.Spanning) :
    Passage law limits p p.machine (p.parts limits) (p.finish? limits) := by
  obtain ⟨task, fuel, m⟩ := p
  cases task with
  | expr e => exact passage_expr u e
  | exprs es => exact passage_exprs u es
  | chain sofar rest => exact passage_chain u sofar rest
  | formula f => exact passage_formula u f
  | statement s => exact passage_statement u s
  | block b => exact passage_block u b
  | rounds line condition body bound => exact passage_rounds u line condition body bound
  | host p => exact passage_host u places p
  | call name arguments => exact passage_call u places (spans rfl) name arguments
  | body b => exact .only (.here rfl rfl)

/-- Whatever a task is, it obeys the law from its start to its end. -/
lemma step_finish? {p : Point} {n : Machine} (ended : p.finish? limits = some n) :
    law.step p.machine n := by
  have of_obeys {α : Type} {x : Run α} {m : Machine} (h : Obeys law x)
      (ended : (x.on m).map Prod.snd = some n) : law.step m n := by
    obtain ⟨⟨r, n⟩, at_end, rfl⟩ := Option.map_eq_some_iff.mp ended
    exact (h m r n (u.holds m) at_end).1
  obtain ⟨task, fuel, m⟩ := p
  have calls : (callByName limits fuel).Lawful law := u.regular.callByName
  cases task with
  | expr e => exact of_obeys (.of_onLine fun _ => obeys_eval e (u.admits calls _ _)) ended
  | exprs es => exact of_obeys (.of_onLine fun _ => obeys_evalAll es (u.admits calls _ _)) ended
  | chain sofar rest =>
    exact of_obeys (.of_onLine fun _ => obeys_evalLogic sofar rest (u.admits calls _ _)) ended
  | formula f => exact of_obeys (.of_onLine fun _ => u.formula_on calls f) ended
  | statement s =>
    have free : law.yielding.LineFree := u.lineFree
    have leaking : Obeys (law.yielding.leaking s.strays)
        (s.execute limits (callByName limits fuel) fuel) :=
      obeys_statement_leaking free s fun t _ => u.regular.allows calls t
    exact of_obeys (u.of_regular leaking) ended
  | block b => exact of_obeys (u.block_of calls b) ended
  | rounds line condition body bound =>
    refine of_obeys (obeys_rounds u.lineFree bound u.regular.spend ?_ (u.block_of calls body)) ended
    exact u.formula_on calls condition
  | host p =>
    have flawless (line : Nat) : Obeys (law.flawless.onLine line)
        (p.perform (callByName limits fuel)) :=
      u.perform_on calls (fun _ => u.holds _) p (.inr u.opens)
    exact of_obeys (.of_onLine fun _ => (flawless _).mono id (fun _ step => step) nofun) ended
  | call name arguments => exact of_obeys (.of_onLine fun line => calls line name arguments) ended
  | body b => exact of_obeys (u.block_of calls b) ended

namespace Passage

variable {p : Point} {qs : List Point} {o : Option Machine}

/-- Every part of the way begins after a step. -/
lemma begins (h : Passage law limits p m qs o) : ∀ q ∈ qs, Begins law limits p m q := by
  induction h with
  | close | halt => exact List.forall_mem_nil _
  | part begins ended _ ih =>
    refine List.forall_mem_cons.mpr ⟨begins, fun q mem => ?_⟩
    exact (ih q mem).prepend (law.trans begins.step (step_finish? u ended))
  | stuck begins _ => exact List.forall_mem_singleton.mpr begins

/-- A part has ended before a later one begins. -/
lemma in_order (h : Passage law limits p m qs o) :
    qs.Pairwise fun q q' => ∃ n, q.finish? limits = some n ∧ Begins law limits p n q' := by
  induction h with
  | close | halt => exact .nil
  | part begins ended rest ih => exact .cons (fun q mem => ⟨_, ended, rest.begins u q mem⟩) ih
  | stuck => exact List.pairwise_singleton _ _

/-- The whole way is a step. -/
lemma step (h : Passage law limits p m qs o) {n : Machine} (e : o = some n) : law.step m n := by
  induction h with
  | close step =>
    cases e
    exact step
  | halt | stuck => cases e
  | part begins ended _ ih => exact law.trans begins.step (law.trans (step_finish? u ended) (ih e))

/-- The parts of a task that ends have ended. -/
lemma part_finish? (h : Passage law limits p m qs o) {n : Machine} (e : o = some n) :
    ∀ q ∈ qs, ∃ n', q.finish? limits = some n' ∧ law.step n' n := by
  induction h with
  | close | halt => exact List.forall_mem_nil _
  | part begins ended rest ih =>
    refine List.forall_mem_cons.mpr ⟨⟨_, ended, ?_⟩, ih e⟩
    exact rest.step u e
  | stuck => cases e

end Passage

end

/-- Nothing is forbidden. -/
def lawless : Law where
  holds _ := True
  step _ _ := True
  ends _ := True
  refl _ := trivial
  trans _ _ := trivial
  keeps _ _ := trivial

/-- Nothing being forbidden is a universal law. -/
lemma universal_lawless (limits : Limits) : lawless.Universal limits where
  holds _ := trivial
  ends _ := trivial
  opens _ _ := trivial
  other _ _ _ := trivial
  values _ := trivial
  contexts _ := trivial
  log _ _ _ := trivial
  grant _ := trivial
  refuse _ := trivial
  call _ _ := trivial
  inside _ := trivial

/-- Every task under way ends if the first one does. -/
lemma Reached.ends {limits : Limits} {start p : Point} {ps : List Point}
    (h : Reached limits start (p :: ps)) (ended : (start.finish? limits).isSome) :
    (p.finish? limits).isSome := by
  have u := universal_lawless limits
  -- downwards from the start: each task on the stack is a part of one that ends
  generalize reached : p :: ps = stack at h
  induction h generalizing p ps with
  | start =>
    cases reached
    exact ended
  | @part p₁ q ps₁ h mem ih =>
    cases reached
    obtain ⟨n, at_end⟩ := Option.isSome_iff_exists.mp (ih rfl)
    have way : Passage lawless limits p₁ p₁.machine (p₁.parts limits) (p₁.finish? limits) :=
      passage u (fun _ _ _ => trivial) fun _ => ⟨fun _ _ => trivial, fun _ _ => trivial⟩
    obtain ⟨n', ended', -⟩ := way.part_finish? u at_end q mem
    exact Option.isSome_of_eq_some ended'

/-- Going on to parts of parts, each by its place, reaches further points. -/
lemma Reached.follow {limits : Limits} {start : Point} {places : List Nat}
    {here there : Point × List Point} (h : Reached limits start (here.1 :: here.2))
    (e : Point.follow limits places here = some there) :
    Reached limits start (there.1 :: there.2) := by
  induction places generalizing here with
  | nil =>
    cases e
    exact h
  | cons i places ih =>
    obtain ⟨q, part, e⟩ := Option.bind_eq_some_iff.mp e
    exact ih (.part h (List.mem_of_getElem? part)) e

end Linework
