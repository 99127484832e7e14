import Linework.Proofs.Rewriting
import Linework.Machine.Execute

/-!
# Evaluating and executing are parametric

A relation between actions that holds of what an expression asks the machine for, and is kept when
actions are done one after the other, holds of evaluating the expression (`Relates`). The same goes
for executing statements (`Pairing.Carries`): this is the one induction over statements, of which
laws of single runs and comparisons of two runs are instances. The second execution may go by other
names for the variables, other numbers for the lines, other limits and other fuel. A property of
single actions is a relation that does not look at the second one.
-/

namespace Linework

/-- A relation between actions that give values of one type. -/
abbrev ActionRel := (α : Type) → Run α → Run α → Prop

/-- A relation between actions that is kept when actions are done one after the other. -/
structure Sequential (R : ActionRel) : Prop where
  pure {α : Type} (a : α) : R α (pure a) (pure a)
  bind {α β : Type} {x x' : Run α} {f f' : α → Run β} :
    R α x x' → (∀ a, R β (f a) (f' a)) → R β (x >>= f) (x' >>= f')

/-- What has to be related for expressions with the given variables and called functions. -/
structure Relates (R : ActionRel) (σ : String → String)
    (invoke invoke' : Invoke) (refs callees : List String) : Prop extends Sequential R where
  draw : R Float Run.draw Run.draw
  lookup : ∀ name ∈ refs, R Value (Run.lookup name) (Run.lookup (σ name))
  call : ∀ name ∈ callees, ∀ arguments, R Value (invoke name arguments) (invoke' name arguments)

namespace Relates

variable {R : ActionRel} {σ : String → String} {invoke invoke' : Invoke}

/-- What is related for two expressions is related for each of them. -/
lemma split {refs refs' callees callees' : List String}
    (h : Relates R σ invoke invoke' (refs ++ refs') (callees ++ callees')) :
    Relates R σ invoke invoke' refs callees ∧ Relates R σ invoke invoke' refs' callees' where
  left := ⟨h.toSequential, h.draw, fun name mem => h.lookup name (List.mem_append_left _ mem),
    fun name mem => h.call name (List.mem_append_left _ mem)⟩
  right := ⟨h.toSequential, h.draw, fun name mem => h.lookup name (List.mem_append_right _ mem),
    fun name mem => h.call name (List.mem_append_right _ mem)⟩

mutual

/-- Evaluating an expression. -/
lemma eval : (e : Expr) → Relates R σ invoke invoke' e.refs e.callees →
    R Value (e.eval invoke) ((e.rename σ).eval invoke')
  | .literal v, h => h.pure v
  | .ref name, h => h.lookup name.lexeme List.mem_cons_self
  | .group inner, h => eval inner h
  | .unary _ right, h => h.bind (eval right h) fun _ => h.pure _
  | .binary left _ right, h =>
    h.bind (eval left h.split.1) fun _ => h.bind (eval right h.split.2) fun _ => h.pure _
  | .call callee arguments, h => by
    have inner : Relates R σ invoke invoke' (Expr.refsAll arguments) (Expr.calleesAll arguments) :=
      ⟨h.toSequential, h.draw, h.lookup, fun name mem => h.call name (List.mem_cons_of_mem _ mem)⟩
    exact h.bind (evalAll arguments inner) (h.call callee.lexeme List.mem_cons_self)
  | .range low high _, h =>
    h.bind (eval low h.split.1) fun _ => h.bind (eval high h.split.2) fun _ =>
      h.bind h.draw fun _ => h.pure _
  | .logic first rest, h =>
    h.bind (eval first h.split.1) fun v => evalLogic v.isTruthy rest h.split.2

/-- Evaluating expressions from left to right. -/
lemma evalAll : (es : List Expr) →
    Relates R σ invoke invoke' (Expr.refsAll es) (Expr.calleesAll es) →
    R (List Value) (Expr.evalAll invoke es) (Expr.evalAll invoke' (Expr.renameAll σ es))
  | [], h => h.pure []
  | e :: es, h => h.bind (eval e h.split.1) fun _ => h.bind (evalAll es h.split.2) fun _ => h.pure _

/-- Evaluating the rest of a chain of conditions. -/
lemma evalLogic (sofar : Bool) : (es : List (Token × Expr)) →
    Relates R σ invoke invoke' (Expr.refsLogic es) (Expr.calleesLogic es) →
    R Value (Expr.evalLogic invoke sofar es) (Expr.evalLogic invoke' sofar (Expr.renameLogic σ es))
  | [], h => h.pure _
  | (connective, e) :: rest, h => by
    obtain ⟨first, others⟩ := h.split
    simp only [Expr.renameLogic, Expr.evalLogic]
    split
    · split
      · exact h.pure _
      · refine h.bind (eval e first) fun v => ?_
        split
        · exact h.pure _
        · exact evalLogic false rest others
    · split
      · refine h.bind (eval e first) fun v => ?_
        split
        · exact evalLogic true rest others
        · exact h.pure _
      · exact h.pure _

end

/-- A formula that cannot be read is reported instead. -/
lemma formula {f : Formula} (h : Relates R σ invoke invoke' f.refs f.callees)
    (fault : ∀ error, f.compiled = .error error → R Unit
      (Run.diagnose (.badFormula error f.source)) (Run.diagnose (.badFormula error f.source))) :
    R Value (f.eval invoke) ((f.rename σ).eval invoke') := by
  obtain ⟨source, compiled⟩ := f
  cases compiled with
  | ok e => exact eval e h
  | error error => exact h.bind (fault error rfl) fun _ => h.pure _

/-- The same formula on both sides. -/
lemma formula_same {f : Formula} (h : Relates R id invoke invoke' f.refs f.callees)
    (fault : ∀ error, f.compiled = .error error → R Unit
      (Run.diagnose (.badFormula error f.source)) (Run.diagnose (.badFormula error f.source))) :
    R Value (f.eval invoke) (f.eval invoke') := by
  have related := h.formula fault
  rwa [f.rename_id] at related

end Relates

/-- Two ways to execute statements. The second may go by other names and lines. -/
structure Pairing where
  names : String → String
  lines : Nat → Nat
  limits : Limits
  limits' : Limits
  invoke : Invoke
  invoke' : Invoke
  fuel : Nat
  fuel' : Nat

/-- One way to execute statements, compared with itself. -/
def Pairing.same (limits : Limits) (invoke : Invoke) (fuel : Nat) : Pairing :=
  ⟨id, id, limits, limits, invoke, invoke, fuel, fuel⟩

namespace Pairing

/-- Relations that pass from the parts of a statement to the whole. There is one for each line, for
what happens while it is the current one, and one for what may happen on any line; and each of them
for the loop words that may leave the action. -/
structure Carries (p : Pairing) (R : Option Nat → List (LoopWord × Nat) → ActionRel) : Prop where
  sequential (line? : Option Nat) (words : List (LoopWord × Nat)) : Sequential (R line? words)
  weaken {line? : Option Nat} {words words' : List (LoopWord × Nat)} {α : Type} {x x' : Run α} :
    words ⊆ words' → R line? words α x x' → R line? words' α x x'
  atLine {line : Nat} {words : List (LoopWord × Nat)} {α : Type} {x x' : Run α} :
    R (some line) words α x x' → R none words α (Run.atLine line >>= fun _ => x)
      (Run.atLine (p.lines line) >>= fun _ => x')
  exits (word : LoopWord) (line : Nat) : R (some line) [(word, line)] Unit
    (throw (.exit word line)) (throw (.exit word (p.lines line)))

/-- What has to be related for a statement, apart from its inner blocks. -/
structure Allows (p : Pairing) (R : Option Nat → List (LoopWord × Nat) → ActionRel)
    (s : Statement) : Prop where
  spend : R (some s.line) [] Unit (Run.spend p.limits) (Run.spend p.limits')
  formula : ∀ f ∈ s.formula?,
    R (some s.line) [] Value (f.eval p.invoke) ((f.rename p.names).eval p.invoke')
  declare : ∀ name ∈ s.declared?, ∀ v,
    R (some s.line) [] Unit (Run.declare name v) (Run.declare (p.names name) v)
  store : ∀ name ∈ s.target?, ∀ op v,
    R (some s.line) [] Unit (Run.store name op v) (Run.store (p.names name) op v)
  yields (v : Value) :
    R (some s.line) [] Unit (throw (.yield v s.line)) (throw (.yield v (p.lines s.line)))
  loop (isLoop : s.isLoop = true) {test test' : Run Value} {words : List (LoopWord × Nat)}
    {body body' : Run Unit} :
    R (some s.line) [] Value test test' → R none words Unit body body' →
      R none [] Unit (rounds p.limits s.line test body p.fuel)
        (rounds p.limits' (p.lines s.line) test' body' p.fuel')

end Pairing

/-- A block pays for its first statement on the line of the statement, before all else. -/
lemma executeBlock_cons (limits : Limits) (invoke : Invoke) (fuel : Nat) (s : Statement)
    (rest : Block) :
    executeBlock limits invoke fuel (s :: rest) =
      (Run.atLine s.line >>= fun _ => Run.spend limits) >>= fun _ =>
        s.execute limits invoke fuel >>= fun _ => executeBlock limits invoke fuel rest := by
  rw [executeBlock, bind_assoc]

namespace Pairing.Carries

variable {p : Pairing} {R : Option Nat → List (LoopWord × Nat) → ActionRel}

/-- Executing a statement of one line. -/
lemma instruction (h : p.Carries R) {line : Nat} {i : Instruction}
    (allows : p.Allows R (.plain line i)) :
    R (some line) (Statement.plain line i).strays Unit (i.execute p.invoke line)
      ((i.rename p.names).execute p.invoke' (p.lines line)) := by
  have seq := h.sequential (some line)
  have optional (value : Option Formula) (own : ∀ f ∈ value, f ∈ i.formula?) :
      R (some line) [] Value (Formula.evalOptional p.invoke value)
        (Formula.evalOptional p.invoke' (value.map (Formula.rename p.names))) := by
    cases value with
    | none => exact (seq []).pure _
    | some f => exact allows.formula f (own f rfl)
  cases i with
  | compute formula => exact (seq []).bind (allows.formula formula rfl) fun _ => (seq []).pure ()
  | declare name value =>
    exact (seq []).bind (optional value fun _ => id) fun v => allows.declare name rfl v
  | assign name op value =>
    exact (seq []).bind (allows.formula value rfl) fun v => allows.store name rfl op v
  | yield value => exact (seq []).bind (optional value fun _ => id) fun v => allows.yields v
  | exit word => exact h.exits word line

mutual

/-- Executing a statement. -/
lemma statement (h : p.Carries R) : (s : Statement) → (∀ t ∈ s.parts, p.Allows R t) →
    R none s.strays Unit (s.execute p.limits p.invoke p.fuel)
      (((s.rename p.names).relabel p.lines).execute p.limits' p.invoke' p.fuel')
  | .plain _ _, allows => h.atLine (h.instruction (allows _ (Statement.mem_parts _)))
  | .branch line condition yes no, allows => by
    have own := allows _ (Statement.mem_parts _)
    have tested := h.weaken (List.nil_subset (strays yes ++ straysElse no))
      (h.atLine (own.formula condition rfl))
    rw [Statement.rename, Statement.relabel, Statement.execute, Statement.execute, ← bind_assoc,
      ← bind_assoc]
    refine (h.sequential none _).bind tested fun v => ?_
    split
    · refine h.weaken (List.subset_append_left _ _) (block h yes fun t mem => allows t ?_)
      exact List.mem_cons_of_mem _ (List.mem_append_left _ mem)
    · refine h.weaken (List.subset_append_right _ _) (otherwise h no fun t mem => allows t ?_)
      exact List.mem_cons_of_mem _ (List.mem_append_right _ mem)
  | .loop line condition body, allows => by
    have own := allows _ (Statement.mem_parts _)
    refine own.loop rfl (own.formula condition rfl) (block h body fun t mem => allows t ?_)
    exact List.mem_cons_of_mem _ mem

/-- Executing a block, up to the loop words that leave it. -/
lemma block (h : p.Carries R) : (b : List Statement) → (∀ t ∈ statements b, p.Allows R t) →
    R none (strays b) Unit (executeBlock p.limits p.invoke p.fuel b)
      (executeBlock p.limits' p.invoke' p.fuel' (relabelBlock p.lines (renameBlock p.names b)))
  | [], _ => (h.sequential none []).pure ()
  | s :: rest, allows => by
    have own := allows s (List.mem_append_left _ s.mem_parts)
    have seq := h.sequential none (s.strays ++ strays rest)
    rw [renameBlock, relabelBlock, executeBlock_cons, executeBlock_cons, s.line_rewrite]
    refine seq.bind (h.weaken (List.nil_subset _) (h.atLine own.spend)) fun _ => ?_
    refine seq.bind (h.weaken (List.subset_append_left _ _) (statement h s fun t mem => ?_))
      fun _ => h.weaken (List.subset_append_right _ _) (block h rest fun t mem => ?_)
    · exact allows t (List.mem_append_left _ mem)
    · exact allows t (List.mem_append_right _ mem)

/-- Executing the other block of a branch. -/
lemma otherwise (h : p.Carries R) : (b : Option (List Statement)) →
    (∀ t ∈ statementsElse b, p.Allows R t) →
    R none (straysElse b) Unit (executeElse p.limits p.invoke p.fuel b)
      (executeElse p.limits' p.invoke' p.fuel' (relabelElse p.lines (renameElse p.names b)))
  | none, _ => (h.sequential none []).pure ()
  | some b, allows => block h b allows

end

/-- Executing a block, with the same names and lines on both sides. -/
lemma block_same (h : p.Carries R) (names : p.names = id) (lines : p.lines = id) (b : Block)
    (allows : ∀ t ∈ statements b, p.Allows R t) :
    R none (strays b) Unit (executeBlock p.limits p.invoke p.fuel b)
      (executeBlock p.limits' p.invoke' p.fuel' b) := by
  have related := h.block b allows
  rwa [names, lines, renameBlock_id, relabelBlock_id] at related

end Pairing.Carries

/-- A round of a loop is a test on the line of the loop, which pays for the round, and what follows
from it. -/
lemma rounds_succ (limits : Limits) (line : Nat) (test : Run Value) (body : Run Unit)
    (fuel : Nat) :
    rounds limits line test body (fuel + 1) =
      (Run.atLine line >>= fun _ => test >>= fun v =>
        if v.isTruthy then Run.spend limits >>= fun _ => pure true else pure false) >>= fun goes =>
      if goes then (Run.attempt body >>= afterRound) >>= fun again =>
        if again then rounds limits line test body fuel else pure ()
      else pure () := by
  rw [rounds, bind_assoc]
  congr 1
  funext _
  rw [bind_assoc]
  congr 1
  funext v
  cases v.isTruthy <;> simp

section

variable {p : Pairing} {R : Option Nat → List (LoopWord × Nat) → ActionRel} {line : Nat}
  {test test' : Run Value} {words : List (LoopWord × Nat)} {body body' : Run Unit}
  {next next' : Run Unit}

/-- One round of a loop, given that the rounds after it are related. -/
lemma Pairing.Carries.round (h : p.Carries R)
    (spend : R (some line) [] Unit (Run.spend p.limits) (Run.spend p.limits'))
    (tests : R (some line) [] Value test test')
    (bodies : R none [] Bool (Run.attempt body >>= afterRound) (Run.attempt body' >>= afterRound))
    (nexts : R none [] Unit next next') :
    R none [] Unit
      ((Run.atLine line >>= fun _ => test >>= fun v =>
        if v.isTruthy then Run.spend p.limits >>= fun _ => pure true
        else pure false) >>= fun goes =>
        if goes then (Run.attempt body >>= afterRound) >>= fun again =>
          if again then next else pure ()
        else pure ())
      ((Run.atLine (p.lines line) >>= fun _ => test' >>= fun v =>
        if v.isTruthy then Run.spend p.limits' >>= fun _ => pure true
        else pure false) >>= fun goes =>
        if goes then (Run.attempt body' >>= afterRound) >>= fun again =>
          if again then next' else pure ()
        else pure ()) := by
  have onLine := h.sequential (some line) []
  have anywhere := h.sequential none []
  refine anywhere.bind (h.atLine (onLine.bind tests fun v => ?_)) fun goes => ?_
  · split
    · exact onLine.bind spend fun _ => onLine.pure true
    · exact onLine.pure false
  · split
    · refine anywhere.bind bodies fun again => ?_
      split
      · exact nexts
      · exact anywhere.pure ()
    · exact anywhere.pure ()

/-- Relations for loops that have the same fuel on both sides. -/
structure Pairing.Loops (p : Pairing) (R : Option Nat → List (LoopWord × Nat) → ActionRel) :
    Prop where
  fuel : p.fuel' = p.fuel
  outOfFuel : R none [] Unit Run.outOfFuel Run.outOfFuel
  /-- A loop catches the loop words. -/
  catches {words : List (LoopWord × Nat)} {body body' : Run Unit} : R none words Unit body body' →
    R none [] Bool (Run.attempt body >>= afterRound) (Run.attempt body' >>= afterRound)

/-- Executing a loop, round by round. -/
lemma Pairing.Carries.rounds (h : p.Carries R) (loops : p.Loops R)
    (words : List (LoopWord × Nat)) (test test' : Run Value) (body body' : Run Unit)
    (spend : R (some line) [] Unit (Run.spend p.limits) (Run.spend p.limits'))
    (tests : R (some line) [] Value test test')
    (bodies : R none words Unit body body') :
    R none [] Unit (rounds p.limits line test body p.fuel)
      (Linework.rounds p.limits' (p.lines line) test' body' p.fuel') := by
  rw [loops.fuel]
  induction p.fuel with
  | zero => exact loops.outOfFuel
  | succ fuel ih =>
    rw [rounds_succ, rounds_succ]
    exact h.round spend tests (loops.catches bodies) ih

end

end Linework
