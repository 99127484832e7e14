import Linework.Proofs.Passage
import Linework.Proofs.Cancellation

/-!
# Calls are balanced

However an expression, a formula or a call ends, the current line and the depth of calls are the
same as before. So the depth is known inside of a run too: at every point it is the number of the
script function bodies that are under way there.
-/

namespace Linework

/-- The depth of calls stays as it is. -/
def balanced : Law where
  holds _ := True
  step m n := n.budget.depth = m.budget.depth
  ends _ := True
  refl _ := rfl
  trans h h' := h'.trans h
  keeps _ _ := trivial

/-- The depth of calls is a matter of calls alone. -/
lemma universal_balanced (limits : Limits) : balanced.Universal limits where
  holds _ := trivial
  ends _ := trivial
  opens _ _ := rfl
  other _ budget _ := congrArg Budget.depth budget
  values _ := rfl
  contexts _ := rfl
  log _ _ _ := rfl
  grant _ := rfl
  refuse _ := rfl
  call {m n _} _ body := by
    -- the body has ended one call deeper than the caller was
    have deeper : n.budget.depth = m.budget.depth + 1 := body
    show n.budget.depth - 1 = m.budget.depth
    omega
  inside work := work

section

variable {limits : Limits} {fuel : Nat} {m : Machine}

open Point

/-- The part of a call starts one deeper exactly if it is the body of a script function, and then
only within the limit. -/
lemma depth_partsOfCall {name : String} {arguments : List Value} {q : Point}
    (mem : q ∈ partsOfCall limits m name arguments fuel) :
    q.machine.budget.depth = m.budget.depth + (if q.task.isBody then 1 else 0) ∧
      (q.task.isBody → m.budget.depth < limits.maxCallDepth) := by
  cases fuel with
  | zero => cases mem
  | succ fuel =>
    rw [partsOfCall] at mem
    split at mem
    · cases mem
    · split at mem
      · rw [List.mem_singleton] at mem
        subst mem
        exact ⟨rfl, fun body => absurd body Bool.false_ne_true⟩
      · rw [Run.record, Run.after, Run.on_update] at mem
        simp only at mem
        split at mem
        · next room =>
          rw [List.mem_singleton] at mem
          subst mem
          exact ⟨rfl, fun _ => room⟩
        · cases mem

/-- A part starts at the depth of the whole, or one deeper if it is the body of a function. -/
lemma depth_part {p q : Point} (mem : q ∈ p.parts limits) :
    q.machine.budget.depth = p.machine.budget.depth + (if q.task.isBody then 1 else 0) ∧
      (q.task.isBody → p.machine.budget.depth < limits.maxCallDepth) := by
  obtain ⟨task, fuel, m⟩ := p
  by_cases call : task.isCall
  · cases task with
    | call name arguments => exact depth_partsOfCall mem
    | _ => cases call
  · have way : Passage balanced limits ⟨task, fuel, m⟩ m _ _ :=
      passage (universal_balanced limits) (fun _ _ _ => rfl) fun h => absurd h call
    have begins := way.begins (universal_balanced limits) q mem
    have other : q.task.isBody = false := by
      rw [← Bool.not_eq_true]
      exact fun body => call (begins.other body)
    have same : q.machine.budget.depth = m.budget.depth := begins.step
    simp [same, other]

/-- Every task ends at the depth at which it has started. -/
lemma depth_finish? {p : Point} {n : Machine} (ended : n ∈ p.finish? limits) :
    n.budget.depth = p.machine.budget.depth :=
  step_finish? (universal_balanced limits) ended

/-- From a start at which no body is under way, the depth has grown by the number of bodies under
way, and not beyond the limit. -/
lemma Reached.depth {start : Point} {p : Point} {ps : List Point}
    (h : Reached limits start (p :: ps)) (other : start.task.isBody = false)
    (within : start.machine.budget.depth ≤ limits.maxCallDepth) :
    p.machine.budget.depth = start.machine.budget.depth + bodies (p :: ps) ∧
      p.machine.budget.depth ≤ limits.maxCallDepth := by
  generalize reached : p :: ps = stack at h
  induction h generalizing p ps with
  | start =>
    cases reached
    simp [bodies, other, within]
  | @part p₁ q ps₁ h mem ih =>
    cases reached
    obtain ⟨depth, le⟩ := ih rfl
    obtain ⟨step, room⟩ := depth_part mem
    have count : bodies (q :: p₁ :: ps₁) =
        bodies (p₁ :: ps₁) + (if q.task.isBody then 1 else 0) := List.countP_cons
    -- a body adds one on both sides, any other part nothing
    cases body : q.task.isBody with
    | true =>
      have room := room body
      simp only [body, if_true] at step count
      omega
    | false =>
      simp only [body] at step count
      simp at step count
      omega

end

/-- Evaluating and calling leave the current line and the depth as they were, however they end. At
every point of a run the depth is the number of script function bodies under way, within the limit.
If the run ends, so does the task under way there, and then the depth is that number again; the end
of a body can thus take one off. -/
theorem line_and_depth_balanced (limits : Limits) (fuel : Nat) :
    (∀ (e : Expr) m r n, (e.eval (callByName limits fuel)).on m = some (r, n) →
      n.line = m.line ∧ n.budget.depth = m.budget.depth) ∧
    (∀ (f : Formula) m r n, (f.eval (callByName limits fuel)).on m = some (r, n) →
      n.line = m.line ∧ n.budget.depth = m.budget.depth) ∧
    (∀ name arguments m r n, (callByName limits fuel name arguments).on m = some (r, n) →
      n.line = m.line ∧ n.budget.depth = m.budget.depth) ∧
    ∀ (m : Machine) root script p ps,
      Reached limits ⟨.block script.block, fuel, m.restart root script⟩ (p :: ps) →
      p.machine.budget.depth = bodies (p :: ps) ∧
      p.machine.budget.depth ≤ limits.maxCallDepth ∧
      ((m.run limits fuel root script).isSome → (p.finish? limits).isSome) ∧
      ∀ n ∈ p.finish? limits, n.budget.depth = bodies (p :: ps) ∧
        (p.task.isBody → n.budget.closeCall.depth + 1 = n.budget.depth) := by
  have kept {α : Type} {x : Run α} (h : ∀ line, Obeys (balanced.onLine line) x) (m r n)
      (e : x.on m = some (r, n)) : n.line = m.line ∧ n.budget.depth = m.budget.depth := by
    obtain ⟨depth, line⟩ := (h m.line m r n ⟨trivial, rfl⟩ e).1
    exact ⟨line, depth⟩
  have u := universal_balanced limits
  have calls : (callByName limits fuel).Lawful balanced := u.regular.callByName
  refine ⟨?_, ?_, ?_, ?_⟩
  · intro e
    exact kept fun line => obeys_eval e (u.admits calls _ _)
  · intro f
    exact kept fun line => u.formula_on calls f
  · intro name arguments
    exact kept fun line => calls line name arguments
  · intro m root script p ps reached
    obtain ⟨depth, le⟩ := reached.depth rfl (Nat.zero_le _)
    have depth : p.machine.budget.depth = bodies (p :: ps) := depth.trans (Nat.zero_add _)
    refine ⟨depth, le, ?_, ?_⟩
    · intro ends
      rw [Machine.run, Option.isSome_map] at ends
      exact reached.ends (Option.isSome_map.trans ends)
    · intro n ended
      have same : n.budget.depth = bodies (p :: ps) := (depth_finish? ended).trans depth
      refine ⟨same, fun body => ?_⟩
      have pos : 0 < bodies (p :: ps) := List.countP_pos_iff.mpr ⟨p, List.mem_cons_self, body⟩
      show n.budget.depth - 1 + 1 = n.budget.depth
      omega

/-- Within the second call of a function by itself two bodies are under way. -/
theorem line_and_depth_balanced_descent :
    ∃ p ps, Reached ⟨none, none, 2⟩
        ⟨.block descent.block, 5, Engine.quiet.machine.restart builtinRoot descent⟩ (p :: ps) ∧
      bodies (p :: ps) = 2 ∧ p.task.isBody ∧ p.machine.budget.depth = 2 ∧
      ∃ n ∈ p.finish? ⟨none, none, 2⟩, n.budget.depth = 2 := by
  let start : Point :=
    ⟨.block descent.block, 5, Engine.quiet.machine.restart builtinRoot descent⟩
  have found : (Point.follow ⟨none, none, 2⟩ [0, 0, 0, 1, 0, 0, 1, 0, 0, 0, 1, 0] (start, [])).map
      (fun here => (bodies (here.1 :: here.2), here.1.task.isBody)) = some (2, true) := by
    decide +kernel
  have ends : (Engine.quiet.machine.run ⟨none, none, 2⟩ 5 builtinRoot descent).isSome := by
    decide +kernel
  obtain ⟨⟨p, ps⟩, path, e⟩ := Option.map_eq_some_iff.mp found
  obtain ⟨two, body⟩ := Prod.mk.inj e
  have reached : Reached ⟨none, none, 2⟩ start (p :: ps) := Reached.start.follow path
  obtain ⟨depth, -, finishes, ended⟩ :=
    (line_and_depth_balanced ⟨none, none, 2⟩ 5).2.2.2 _ builtinRoot descent p ps reached
  obtain ⟨n, at_end⟩ := Option.isSome_iff_exists.mp (finishes ends)
  exact ⟨p, ps, reached, two, body, depth.trans two, n, at_end, (ended n at_end).1.trans two⟩

end Linework
