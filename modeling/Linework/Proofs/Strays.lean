import Linework.Proofs.Universal
import Linework.Proofs.Cancellation

/-!
# Where loop words lead to

A loop word ends a loop of the body it stands in, or it is an error on its line. It never leaves the
body: what evaluating and calling end with, if not with a value, is an error of the whole run. One
law says this for any machine, and for a run which loop words the error can be about.
-/

namespace Linework

/-- Whether all loop words that leave the body of a function are among some. -/
def Function.StraysIn (P : LoopWord → Nat → Prop) (f : Function) : Prop :=
  ∀ b, f.body = .script b → ∀ word line, (word, line) ∈ strays b → P word line

/-- The law of evaluating and calling on any machine: they end with a value or an error of the whole
run. -/
def aborting : Law where
  holds _ := True
  step _ _ := True
  ends i := ∃ error, i = .abort error
  refl _ := trivial
  trans _ _ := trivial
  keeps _ _ := trivial

/-- All calls are under that law, whatever the functions are. -/
lemma regular_aborting (limits : Limits) : aborting.Regular limits :=
  have lax : aborting.Lax limits :=
    ⟨fun _ _ _ => trivial, fun _ => trivial, fun _ => trivial, fun _ _ _ => trivial,
      fun _ => trivial, fun _ => trivial, fun _ _ => trivial, fun _ => trivial⟩
  { lax with
    enters _ _ := trivial
    cancelled _ _ := ⟨_, rfl⟩
    strays _ _ _ _ _ _ := ⟨_, rfl⟩
    exits := nofun
    hosts _ _ body _ calls _ arguments :=
      lax.host_on aborting calls (fun _ => trivial) (fun _ => trivial) (fun _ => trivial) body
        (.inr fun _ _ => trivial) arguments }

/-- What evaluates and calls ends with a value or with an error of the whole run. -/
lemma abort_of_obeys {α : Type} {x : Run α} (h : ∀ line, Obeys (aborting.onLine line) x)
    {m n : Machine} {i : Interrupt} (ended : x.on m = some (.error i, n)) :
    ∃ error, i = .abort error :=
  (h m.line m _ n ⟨trivial, rfl⟩ ended).2 i rfl

/-- The law of machines whose host registers no functions. -/
def modest : Law where
  holds m := ∀ f ∈ m.scope.functions, f.IsModest
  step m n := n.scope.Extends m.scope
  ends _ := True
  refl _ := .of_shape rfl
  trans h h' := h'.trans h
  keeps h h' := h'.functions ▸ h

/-- Nothing in a run registers a function. -/
lemma lax_modest (limits : Limits) : modest.Lax limits where
  other scope _ _ := .of_shape (congrArg Scope.shape scope)
  values := .of_shape
  contexts grown := ⟨rfl, grown, rfl⟩
  log _ _ _ := .of_shape rfl
  grant _ := .of_shape rfl
  refuse _ := .of_shape rfl
  call _ body := ⟨rfl, body.contexts, rfl⟩
  inside work := ⟨rfl, work.contexts, rfl⟩

/-- The host functions of all contexts are modest wherever they are seen from. -/
lemma modest_behind {m : Machine} {own : Option Frame} {here : Nat} (holds : modest.holds m)
    (plain : ∀ frame ∈ own, frame.functions = []) : modest.holds (m.behind own here) := by
  have none : own.elim [] Frame.functions = [] := by
    cases own with
    | none => rfl
    | some frame => exact plain frame rfl
  intro f mem
  rw [Scope.functions, Machine.behind, none] at mem
  exact holds f (List.mem_append_right _ mem)

/-- Calls register no functions if no host function does. -/
lemma regular_modest (limits : Limits) : modest.Regular limits where
  toLax := lax_modest limits
  enters holds plain := modest_behind holds (by rintro _ ⟨⟩; exact plain)
  cancelled _ _ := trivial
  strays _ _ _ _ _ _ := trivial
  exits _ := trivial
  hosts holds found body _ calls _ arguments :=
    (lax_modest limits).host_on modest calls (modest_behind · nofun) (modest_behind · nofun)
      (lax_modest limits).inside body (.inl (holds _ (Scope.mem_of_function? found) _ body))
      arguments

/-- The law of evaluating and calling, where loop words leave a body only if they are among some. -/
def straying (P : LoopWord → Nat → Prop) : Law where
  holds m := modest.holds m ∧ m.scope.AllFunctions (Function.StraysIn P)
  step := modest.step
  ends i := ∃ error, i = .abort error ∧ ∀ word line, error = .strayLoopWord word line → P word line
  refl := modest.refl
  trans := modest.trans
  keeps h h' := ⟨modest.keeps h.1 h', h.2.of_extends h'⟩

/-- Loop words that leave a body are among those of the functions in sight. What the host does in
other contexts, with other functions, does not matter, since its work is never interrupted. -/
lemma regular_straying (P : LoopWord → Nat → Prop) (limits : Limits) :
    (straying P).Regular limits where
  toLax := (lax_modest limits).congr rfl
  enters {m frame} holds plain := by
    have plain : ∀ frame' ∈ some frame, frame'.functions = [] := by
      rintro _ ⟨⟩
      exact plain
    exact ⟨modest_behind holds.1 plain, holds.2.behind plain⟩
  cancelled _ _ := ⟨_, rfl, nofun⟩
  strays holds found body word line stray := by
    refine ⟨_, rfl, ?_⟩
    rintro _ _ ⟨⟩
    exact holds.2.found found _ body word line stray
  exits := by
    rintro _ _ ⟨_, ⟨⟩, _⟩
  hosts holds found body fuel _ _ arguments := by
    have calls : (callByName limits fuel).Lawful modest := (regular_modest limits).callByName
    exact (lax_modest limits).host_on (straying P) calls (modest_behind · nofun)
      (fun holds => modest_behind holds.1 nofun) (lax_modest limits).inside body
      (.inl (holds.1 _ (Scope.mem_of_function? found) _ body)) arguments

/-- At the start of a run with host functions only, all bodies in sight are those of the script. -/
lemma straying_restart {m : Machine} {root : Frame} (hosts : ∀ f ∈ root.functions, f.isHost)
    (modest : ∀ f ∈ root.functions ++ m.scope.contexts.functions, f.IsModest) (script : Script) :
    (straying fun word line => (word, line) ∈ script.strays).holds (m.restart root script) := by
  refine ⟨fun f mem => ?_, allFunctions_restart (fun f host b body => ?_) ?_ m⟩
  · have mem : f ∈ (root.functions ++ script.functions.map Definition.toFunction) ++
        m.scope.contexts.functions := mem
    simp only [List.mem_append, List.mem_map] at mem
    rcases mem with (host | ⟨d, _, rfl⟩) | older
    · exact modest f (List.mem_append_left _ host)
    · rintro _ ⟨⟩
    · exact modest f (List.mem_append_right _ older)
  · have := hosts f host
    simp [Function.isHost, body] at this
  · rintro d own b ⟨⟩ word line stray
    exact List.mem_append_right _ (List.mem_flatMap.mpr ⟨d, own, stray⟩)

/-- Evaluating and calling end with a value or with an error of the whole run, never with a loop
word or a value handed back. If no host function registers a function and a run fails for a stray
loop word, then the script has that word on that line, outside of the loops of the body it belongs
to; so a script without such words does not fail that way. -/
theorem loop_words_stay (limits : Limits) (fuel : Nat) :
    (∀ (e : Expr) m i n, (e.eval (callByName limits fuel)).on m = some (.error i, n) →
      ∃ error, i = .abort error) ∧
    (∀ (f : Formula) m i n, (f.eval (callByName limits fuel)).on m = some (.error i, n) →
      ∃ error, i = .abort error) ∧
    (∀ name arguments m i n, (callByName limits fuel name arguments).on m = some (.error i, n) →
      ∃ error, i = .abort error) ∧
    ∀ (m : Machine) (root : Frame) (script : Script) r n, (∀ f ∈ root.functions, f.isHost) →
      (∀ f ∈ root.functions ++ m.scope.contexts.functions, f.IsModest) →
      m.run limits fuel root script = some (r, n) →
      (∀ word line, r = .error (.strayLoopWord word line) → (word, line) ∈ script.strays) ∧
      (script.strays = [] → ∀ word line, r ≠ .error (.strayLoopWord word line)) := by
  have regular := regular_aborting limits
  have calls : (callByName limits fuel).Lawful aborting := regular.callByName
  refine ⟨?_, ?_, ?_, ?_⟩
  · intro e m i n
    exact abort_of_obeys fun line => obeys_eval e (regular.admits calls _ _)
  · intro f m i n
    exact abort_of_obeys fun line => regular.formula_on calls f
  · intro name arguments m i n
    exact abort_of_obeys fun line => calls line name arguments
  · intro m root script r n hosts modest ended
    obtain ⟨⟨r, n⟩, at_end, e⟩ := Option.map_eq_some_iff.mp ended
    cases e
    -- a stray word comes from the script itself, or from a function of it that ran into one
    let law := straying fun word line => (word, line) ∈ script.strays
    have regular : law.Regular limits := regular_straying _ limits
    have ends := (regular.block_of regular.callByName script.block _ r n
      (straying_restart hosts modest script) at_end).2
    have stray : ∀ word line, Interrupt.resolve r = .error (.strayLoopWord word line) →
        (word, line) ∈ script.strays := by
      intro word line e
      rcases r with (⟨word', line'⟩ | _ | error) | _
      · cases e
        obtain (⟨_, ⟨⟩, _⟩ | ⟨_, _, ⟨⟩⟩) | ⟨_, _, mem, ⟨⟩⟩ := ends _ rfl
        exact List.mem_append_left _ mem
      · cases e
      · cases e
        obtain (⟨_, ⟨⟩, among⟩ | ⟨_, _, ⟨⟩⟩) | ⟨_, _, _, ⟨⟩⟩ := ends _ rfl
        exact among word line rfl
      · cases e
    refine ⟨stray, fun none word line e => ?_⟩
    have mem := stray word line e
    rw [none] at mem
    exact absurd mem List.not_mem_nil

/-- A loop around a call of a function that ends with a `break`. -/
def slipping : Script where
  block := [.loop 1 ⟨"true", .ok (.literal (.bool true))⟩ [callLine 2 "slip"]]
  functions := [⟨"slip", [], [.plain 4 (.exit .leave)]⟩]
  warnings := []

/-- The built-in functions and one that calls others. -/
def shelter : Frame :=
  { builtinRoot with
    functions := builtinRoot.functions ++ [Host.Tool.invoke.toFunction "invoke" 0] }

/-- The loop of the caller does not catch the `break` of the function. -/
theorem loop_words_stay_slipping :
    (∀ f ∈ shelter.functions, f.isHost) ∧ (∀ f ∈ shelter.functions, f.IsModest) ∧
    (∃ n, Engine.quiet.machine.run Limits.default 3 shelter slipping =
      some (.error (.strayLoopWord .leave 4), n)) ∧
    (LoopWord.leave, 4) ∈ slipping.strays ∧
    ∃ i n, (callByName Limits.default 2 "slip" []).on
        (Engine.quiet.machine.restart shelter slipping) = some (.error i, n) ∧
      ∃ error, i = .abort error := by
  have hosts : ∀ f ∈ shelter.functions, f.isHost := by decide +kernel
  have modest : ∀ f ∈ shelter.functions ++ Engine.quiet.machine.scope.contexts.functions,
      f.IsModest := by
    rw [show shelter.functions ++ Engine.quiet.machine.scope.contexts.functions =
      [Host.debug, Host.clock, Host.Tool.invoke.toFunction "invoke" 0] from rfl]
    simp only [List.forall_mem_cons, List.not_mem_nil, false_implies, implies_true, and_true]
    refine ⟨?_, ?_, Host.Tool.isModest _ _ _⟩
    · rintro _ ⟨⟩ _ _
      exact ⟨rfl, fun _ => trivial⟩
    · rintro _ ⟨⟩ _ _
      exact ⟨rfl, fun _ => trivial⟩
  have fails : failure? (Engine.quiet.machine.run Limits.default 3 shelter slipping) =
      some (.strayLoopWord .leave 4, 0) := by decide +kernel
  obtain ⟨n, ended, -⟩ := eq_some_of_failure? fails
  have called : ((callByName Limits.default 2 "slip" []).on
      (Engine.quiet.machine.restart shelter slipping)).map (fun p => p.1.isOk) =
        some false := by decide +kernel
  obtain ⟨⟨r, n'⟩, ended', e⟩ := Option.map_eq_some_iff.mp called
  obtain ⟨-, -, calls, -⟩ := loop_words_stay Limits.default 2
  obtain ⟨-, -, -, runs⟩ := loop_words_stay Limits.default 3
  refine ⟨hosts, fun f mem => modest f (List.mem_append_left _ mem), ⟨n, ended⟩,
    (runs _ _ _ _ n hosts modest ended).1 _ _ rfl, ?_⟩
  cases r with
  | ok v => cases e
  | error i => exact ⟨i, n', ended', calls _ _ _ i n' ended'⟩

end Linework
