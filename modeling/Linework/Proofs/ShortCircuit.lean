import Mathlib.Data.List.TakeWhile
import Linework.Machine.Evaluate

/-!
# Chains of conditions

A chain of conditions may mix `&&` and `||`, which bind alike and are applied from left to right.
Only its leading run of equal connectives counts: what stands behind the first change of connective
is never evaluated. Within the run the operands are tested from left to right, and the first one
that decides is the last one that is evaluated.
-/

namespace Linework

/-- Whether a connective is `||`. Every other one counts as `&&`. -/
def Token.disjoins (t : Token) : Bool := t.kind = .orOr

/-- The beginning of a chain, up to the first change of connective. -/
def leadingRun : List (Token × Expr) → List (Token × Expr)
  | [] => []
  | (connective, e) :: rest =>
    (connective, e) :: rest.takeWhile fun p => p.1.disjoins = connective.disjoins

/-- What the values of all operands amount to: their disjunction or their conjunction. -/
def verdict (disjoins : Bool) (values : List Value) : Value :=
  .bool (if disjoins then values.any Value.isTruthy else values.all Value.isTruthy)

/-- How far operands are evaluated from left to right, if one with the truth value `decisive`
settles the matter. Those in `past` end with values that do not settle it, `last` is evaluated after
them, and if there is anything ahead, then the value of `last` settles it. -/
structure Decides (invoke : Invoke) (decisive : Bool) (operands : List Expr) (m : Machine)
    (past : List Expr) (last : Expr) (ahead : List Expr) : Prop where
  split : operands = past ++ last :: ahead
  settled : ∃ values n, (Expr.evalAll invoke past).on m = some (.ok values, n) ∧
    (∀ v ∈ values, v.isTruthy = !decisive) ∧
    (ahead ≠ [] → ∀ v n', (last.eval invoke).on n = some (.ok v, n') → v.isTruthy = decisive)

variable (invoke : Invoke)

/-- Tests operands from left to right until one has the truth value `decisive`. -/
def judge (decisive : Bool) : List Expr → Run Value
  | [] => pure (.bool !decisive)
  | e :: es => do
    let v ← e.eval invoke
    if v.isTruthy = decisive then pure (.bool decisive) else judge decisive es

/-- A truth value that decides for the next connective decides the chain. -/
lemma evalLogic_decided {connective : Token} {b : Bool} (h : connective.disjoins = b) (e : Expr)
    (rest : List (Token × Expr)) :
    Expr.evalLogic invoke b ((connective, e) :: rest) = pure (.bool b) := by
  subst h
  cases or : connective.disjoins <;> simp_all [Expr.evalLogic, Token.disjoins]

/-- One that does not decide leaves it to the next operand. -/
lemma evalLogic_undecided {connective : Token} {b : Bool} (h : connective.disjoins = b) (e : Expr)
    (rest : List (Token × Expr)) :
    Expr.evalLogic invoke (!b) ((connective, e) :: rest) = (do
      let v ← e.eval invoke
      if v.isTruthy = b then pure (.bool b) else Expr.evalLogic invoke (!b) rest) := by
  subst h
  cases or : connective.disjoins with
  | true => simp_all [Expr.evalLogic, Token.disjoins]
  | false =>
    simp_all only [Expr.evalLogic, Token.disjoins, decide_eq_false_iff_not, Bool.not_false,
      if_false, if_true]
    congr 1
    funext v
    cases v.isTruthy <;> rfl

/-- After a truth value that does not decide, the operands up to the first change of connective are
tested. At the change, the truth value so far decides. -/
lemma evalLogic_eq_judge (b : Bool) (rest : List (Token × Expr)) :
    Expr.evalLogic invoke (!b) rest =
      judge invoke b ((rest.takeWhile fun p => p.1.disjoins = b).map Prod.snd) := by
  induction rest with
  | nil => rfl
  | cons p rest ih =>
    obtain ⟨connective, e⟩ := p
    by_cases same : connective.disjoins = b
    · rw [List.takeWhile_cons_of_pos (by simpa using same), List.map_cons, judge, ← ih,
        evalLogic_undecided invoke same]
    · rw [List.takeWhile_cons_of_neg (by simpa using same)]
      exact evalLogic_decided invoke (Bool.eq_not.mpr same) e rest

/-- A chain tests its first operand and those of its leading run. -/
lemma eval_logic (first : Expr) (connective : Token) (e : Expr) (rest : List (Token × Expr)) :
    (Expr.logic first ((connective, e) :: rest)).eval invoke =
      judge invoke connective.disjoins
        (first :: (leadingRun ((connective, e) :: rest)).map Prod.snd) := by
  rw [Expr.eval, judge]
  congr 1
  funext v
  split
  · next decides =>
    rw [decides]
    exact evalLogic_decided invoke rfl e rest
  · next other =>
    have run : leadingRun ((connective, e) :: rest) =
        ((connective, e) :: rest).takeWhile fun p => p.1.disjoins = connective.disjoins := by
      rw [leadingRun, List.takeWhile_cons_of_pos (by simp)]
    rw [Bool.eq_not.mpr other, evalLogic_eq_judge, run]

/-- A value that does not decide is passed over. -/
lemma verdict_cons_of_ne {b : Bool} {v : Value} (h : v.isTruthy ≠ b) (values : List Value) :
    verdict b (v :: values) = verdict b values := by
  cases b <;> simp_all [verdict]

/-- The last value decides in any case. -/
lemma verdict_singleton (b : Bool) (v : Value) : verdict b [v] = .bool v.isTruthy := by
  cases b <;> simp [verdict]

/-- An operand that is the last one, or that decides if it has a value at all, is the last one to be
evaluated. -/
lemma judge_last {b : Bool} {e : Expr} {es : List Expr} {m : Machine}
    (last : es ≠ [] → ∀ v n, (e.eval invoke).on m = some (.ok v, n) → v.isTruthy = b) :
    (judge invoke b (e :: es)).on m =
      (do return verdict b (← Expr.evalAll invoke [e])).on m := by
  simp only [judge, Expr.evalAll, bind_assoc, pure_bind, Run.on_bind, verdict_singleton,
    Run.on_pure]
  cases ended : (e.eval invoke).on m with
  | none => rfl
  | some p =>
    obtain ⟨r, n⟩ := p
    cases r with
    | error i => rfl
    | ok v =>
      dsimp only
      split
      · next decides => rw [Run.on_pure, decides]
      · next other =>
        cases es with
        | nil => rw [judge, Run.on_pure, Bool.eq_not.mpr other]
        | cons e' es => exact absurd (last (List.cons_ne_nil _ _) v n ended) other

/-- An operand that does not decide leaves it to those after it. -/
lemma judge_next {b : Bool} {e : Expr} {es past : List Expr} {last : Expr} {m n : Machine}
    {v : Value} (ended : (e.eval invoke).on m = some (.ok v, n)) (other : v.isTruthy ≠ b)
    (rest : (judge invoke b es).on n =
      (do return verdict b (← Expr.evalAll invoke (past ++ [last]))).on n) :
    (judge invoke b (e :: es)).on m =
      (do return verdict b (← Expr.evalAll invoke (e :: past ++ [last]))).on m := by
  simp only [judge, List.cons_append, Expr.evalAll, bind_assoc, pure_bind, Run.on_bind, ended,
    if_neg other, rest, verdict_cons_of_ne other]

/-- What decides after a value that does not is what decides. -/
lemma Decides.next {b : Bool} {e : Expr} {es past ahead : List Expr} {last : Expr} {m n : Machine}
    {v : Value} (h : Decides invoke b es n past last ahead)
    (ended : (e.eval invoke).on m = some (.ok v, n)) (other : v.isTruthy ≠ b) :
    Decides invoke b (e :: es) m (e :: past) last ahead := by
  obtain ⟨values, n', evaluated, passed, settles⟩ := h.settled
  refine ⟨congrArg (e :: ·) h.split, v :: values, n', ?_, ?_, settles⟩
  · simp only [Expr.evalAll, Run.on_bind, ended, evaluated, Run.on_pure]
  · exact List.forall_mem_cons.mpr ⟨Bool.eq_not.mpr other, passed⟩

/-- Operands are tested from left to right, and what they amount to is settled by those that are
evaluated. -/
lemma exists_decides (b : Bool) (e : Expr) (es : List Expr) (m : Machine) :
    ∃ past last ahead, Decides invoke b (e :: es) m past last ahead ∧
      (judge invoke b (e :: es)).on m =
        (do return verdict b (← Expr.evalAll invoke (past ++ [last]))).on m := by
  induction es generalizing e m with
  | nil =>
    have alone : ([] : List Expr) ≠ [] → ∀ v n,
        (e.eval invoke).on m = some (.ok v, n) → v.isTruthy = b := fun h => absurd rfl h
    exact ⟨[], e, [], ⟨rfl, [], m, rfl, List.forall_mem_nil _, alone⟩, judge_last invoke alone⟩
  | cons e' es ih =>
    by_cases undecided : ∃ v n, (e.eval invoke).on m = some (.ok v, n) ∧ v.isTruthy ≠ b
    · obtain ⟨v, n, ended, other⟩ := undecided
      obtain ⟨past, last, ahead, decides, rest⟩ := ih e' n
      exact ⟨e :: past, last, ahead, decides.next invoke ended other,
        judge_next invoke ended other rest⟩
    · have settles : e' :: es ≠ [] → ∀ v n,
          (e.eval invoke).on m = some (.ok v, n) → v.isTruthy = b := by
        intro _ v n ended
        by_contra other
        exact undecided ⟨v, n, ended, other⟩
      exact ⟨[], e, e' :: es, ⟨rfl, [], m, rfl, List.forall_mem_nil _, settles⟩,
        judge_last invoke settles⟩

/-- A chain is worth what it is worth up to its first change of connective, and leaves the same
machine. Its operands up to there are evaluated from left to right as far as the first one that
decides, and the chain is the disjunction of their truth values if it begins with `||`, and
otherwise the conjunction. -/
theorem logic_settled_by_leadingRun (first : Expr) (connective : Token) (e : Expr)
    (rest : List (Token × Expr)) :
    (Expr.logic first ((connective, e) :: rest)).eval invoke =
      (Expr.logic first (leadingRun ((connective, e) :: rest))).eval invoke ∧
    ∀ m, ∃ past last ahead,
      Decides invoke connective.disjoins
        (first :: (leadingRun ((connective, e) :: rest)).map Prod.snd) m past last ahead ∧
      ((Expr.logic first ((connective, e) :: rest)).eval invoke).on m =
        (do return verdict connective.disjoins (← Expr.evalAll invoke (past ++ [last]))).on m := by
  constructor
  · have again : leadingRun (leadingRun ((connective, e) :: rest)) =
        leadingRun ((connective, e) :: rest) := by
      rw [leadingRun, leadingRun, List.takeWhile_idem]
    calc
      _ = judge invoke connective.disjoins
          (first :: (leadingRun ((connective, e) :: rest)).map Prod.snd) :=
        eval_logic invoke first connective e rest
      _ = judge invoke connective.disjoins
          (first :: (leadingRun (leadingRun ((connective, e) :: rest))).map Prod.snd) := by
        rw [again]
      _ = _ := (eval_logic invoke first connective e _).symm
  · intro m
    rw [eval_logic]
    exact exists_decides invoke connective.disjoins first _ m

-- `false || true && false` is true: the chain is over before its `&&`
example (m : Machine) :
    ((Expr.logic (.literal (.bool false))
      [(⟨.orOr, "||", none, 7⟩, .literal (.bool true)),
        (⟨.andAnd, "&&", none, 15⟩, .literal (.bool false))]).eval invoke).on m =
      some (.ok (.bool true), m) := rfl

end Linework
