import Linework.Proofs.ShortCircuit
import Linework.Proofs.Laws

/-!
# Points of a run

A run as a tree of tasks. Each task has parts, which start on the machines that the parts before
them have left; a point of a run is the stack of tasks that are under way there. The parts follow
the definitions of the evaluator clause by clause, and use its own actions for what lies between.
-/

namespace Linework

/-- Something that a machine does, of which a part may be under way. -/
inductive Task where
  | expr (e : Expr)
  | exprs (es : List Expr)
  | chain (sofar : Bool) (rest : List (Token × Expr))
  | formula (f : Formula)
  | statement (s : Statement)
  | block (b : Block)
  /-- The rounds of a loop, with a bound on their number. -/
  | rounds (line : Nat) (condition : Formula) (body : Block) (bound : Nat)
  /-- The work of a host function. -/
  | host (p : HostProgram)
  | call (name : String) (arguments : List Value)
  /-- The body of a script function. -/
  | body (b : Block)

/-- Whether a task is the body of a script function. -/
def Task.isBody : Task → Bool
  | .body _ => true
  | _ => false

/-- Whether a task is a call. -/
def Task.isCall : Task → Bool
  | .call _ _ => true
  | _ => false

/-- A task, the fuel for its calls and loops, and the machine on which it starts. -/
structure Point where
  task : Task
  fuel : Nat
  machine : Machine

/-- What follows an action that ends with a value. -/
def Run.after {α β : Type} (x : Run α) (m : Machine) (next : α → Machine → List β) : List β :=
  match x.on m with
  | some (.ok a, n) => next a n
  | _ => []

namespace Point

section

variable (limits : Limits) (fuel : Nat) (m : Machine)

/-- The parts of an expression, from left to right. -/
def partsOfExpr : Expr → List Point
  | .literal _ | .ref _ => []
  | .group inner => [⟨.expr inner, fuel, m⟩]
  | .unary _ right => [⟨.expr right, fuel, m⟩]
  | .binary left _ right | .range left right _ =>
    ⟨.expr left, fuel, m⟩ ::
      (left.eval (callByName limits fuel)).after m fun _ n => [⟨.expr right, fuel, n⟩]
  | .call callee arguments =>
    ⟨.exprs arguments, fuel, m⟩ ::
      (Expr.evalAll (callByName limits fuel) arguments).after m fun values n =>
        [⟨.call callee.lexeme values, fuel, n⟩]
  | .logic first rest =>
    ⟨.expr first, fuel, m⟩ ::
      (first.eval (callByName limits fuel)).after m fun v n => [⟨.chain v.isTruthy rest, fuel, n⟩]

/-- The parts of a list of expressions: the first one and the others. -/
def partsOfExprs : List Expr → List Point
  | [] => []
  | e :: es =>
    ⟨.expr e, fuel, m⟩ ::
      (e.eval (callByName limits fuel)).after m fun _ n => [⟨.exprs es, fuel, n⟩]

/-- The parts of a chain of conditions. A true side decides an `||`, a false side an `&&`. -/
def partsOfChain (sofar : Bool) : List (Token × Expr) → List Point
  | [] => []
  | (connective, e) :: rest =>
    if connective.disjoins = sofar then []
    else
      ⟨.expr e, fuel, m⟩ :: (e.eval (callByName limits fuel)).after m fun v n =>
        if v.isTruthy = connective.disjoins then [] else [⟨.chain sofar rest, fuel, n⟩]

/-- The parts of a statement: its formula, and what follows from the value. -/
def partsOfStatement : Statement → List Point
  | .plain line instruction =>
    instruction.formula?.toList.map fun f => ⟨.formula f, fuel, { m with line := line }⟩
  | .branch line condition yes no =>
    ⟨.formula condition, fuel, { m with line := line }⟩ ::
      (condition.eval (callByName limits fuel)).after { m with line := line } fun v n =>
        if v.isTruthy then [⟨.block yes, fuel, n⟩] else no.toList.map fun b => ⟨.block b, fuel, n⟩
  | .loop line condition body => [⟨.rounds line condition body fuel, fuel, m⟩]

/-- The parts of a block: its first statement, once its step is paid, and the others. -/
def partsOfBlock : Block → List Point
  | [] => []
  | s :: rest =>
    (Run.spend limits).after { m with line := s.line } fun _ n =>
      ⟨.statement s, fuel, n⟩ ::
        (s.execute limits (callByName limits fuel) fuel).after n fun _ n =>
          [⟨.block rest, fuel, n⟩]

/-- The parts of a loop: the test, the round, once its step is paid, and the other rounds. -/
def partsOfRounds (line : Nat) (condition : Formula) (body : Block) : (bound : Nat) → List Point
  | 0 => []
  | bound + 1 =>
    ⟨.formula condition, fuel, { m with line := line }⟩ ::
      (condition.eval (callByName limits fuel)).after { m with line := line } fun v n =>
        if v.isTruthy then
          (Run.spend limits).after n fun _ n =>
            ⟨.block body, fuel, n⟩ ::
              (Run.attempt (executeBlock limits (callByName limits fuel) fuel body) >>=
                  afterRound).after n fun again n =>
                if again then [⟨.rounds line condition body bound, fuel, n⟩] else []
        else []

/-- The parts of the work of a host function: what it asks for, in the context that it names, and
the work after the answer. -/
def partsOfHost : HostProgram → List Point
  | .done _ | .hang => []
  | .ask request next => request.answer.after m fun reply n => [⟨.host (next reply), fuel, n⟩]
  | .evaluate context source next =>
    ⟨.formula (Formula.compile source.toList), fuel, m.behind none context⟩ ::
      (Run.inside none context
          ((Formula.compile source.toList).eval (callByName limits fuel))).after m
        fun r n => [⟨.host (next r), fuel, n⟩]
  | .call context name arguments next =>
    ⟨.call name arguments, fuel, m.behind none context⟩ ::
      (Run.inside none context (callByName limits fuel name arguments)).after m
        fun r n => [⟨.host (next r), fuel, n⟩]
  | .offer context name params program next =>
    (Run.register context ⟨name, params, .host program⟩).after m fun _ n => [⟨.host next, fuel, n⟩]

/-- The part of a call: the body of the function or the work of the host. -/
def partsOfCall (name : String) (arguments : List Value) : (fuel : Nat) → List Point
  | 0 => []
  | fuel + 1 =>
    match m.scope.function? name with
    | none => []
    | some f =>
      match f.body with
      | .host program =>
        [⟨.host (program m.scope.root arguments), fuel, m.behind none m.scope.root⟩]
      | .script body =>
        (Run.record (.calling f.name arguments.length)).after m fun _ n =>
          if n.budget.depth < limits.maxCallDepth then
            [⟨.body body, fuel, n.enter (f.frame arguments)⟩]
          else []

end

/-- The tasks that are directly parts of a task, each on the machine on which it starts. -/
def parts (limits : Limits) : Point → List Point
  | ⟨.expr e, fuel, m⟩ => partsOfExpr limits fuel m e
  | ⟨.exprs es, fuel, m⟩ => partsOfExprs limits fuel m es
  | ⟨.chain sofar rest, fuel, m⟩ => partsOfChain limits fuel m sofar rest
  | ⟨.formula f, fuel, m⟩ => f.tree?.toList.map fun e => ⟨.expr e, fuel, m⟩
  | ⟨.statement s, fuel, m⟩ => partsOfStatement limits fuel m s
  | ⟨.block b, fuel, m⟩ => partsOfBlock limits fuel m b
  | ⟨.rounds line condition body bound, fuel, m⟩ =>
    partsOfRounds limits fuel m line condition body bound
  | ⟨.host p, fuel, m⟩ => partsOfHost limits fuel m p
  | ⟨.call name arguments, fuel, m⟩ => partsOfCall limits m name arguments fuel
  | ⟨.body b, fuel, m⟩ => [⟨.block b, fuel, m⟩]

/-- The machine on which a task ends, if it ends. -/
def finish? (limits : Limits) : Point → Option Machine
  | ⟨.expr e, fuel, m⟩ => ((e.eval (callByName limits fuel)).on m).map Prod.snd
  | ⟨.exprs es, fuel, m⟩ => ((Expr.evalAll (callByName limits fuel) es).on m).map Prod.snd
  | ⟨.chain sofar rest, fuel, m⟩ =>
    ((Expr.evalLogic (callByName limits fuel) sofar rest).on m).map Prod.snd
  | ⟨.formula f, fuel, m⟩ => ((f.eval (callByName limits fuel)).on m).map Prod.snd
  | ⟨.statement s, fuel, m⟩ =>
    ((s.execute limits (callByName limits fuel) fuel).on m).map Prod.snd
  | ⟨.block b, fuel, m⟩ | ⟨.body b, fuel, m⟩ =>
    ((executeBlock limits (callByName limits fuel) fuel b).on m).map Prod.snd
  | ⟨.rounds line condition body bound, fuel, m⟩ =>
    ((rounds limits line (condition.eval (callByName limits fuel))
      (executeBlock limits (callByName limits fuel) fuel body) bound).on m).map Prod.snd
  | ⟨.host p, fuel, m⟩ => ((p.perform (callByName limits fuel)).on m).map Prod.snd
  | ⟨.call name arguments, fuel, m⟩ =>
    ((callByName limits fuel name arguments).on m).map Prod.snd

/-- The point that is reached by going on to parts at some places, with those it is inside of. -/
def follow (limits : Limits) : List Nat → Point × List Point → Option (Point × List Point)
  | [], here => some here
  | i :: places, (p, ps) => (p.parts limits)[i]?.bind fun q => follow limits places (q, p :: ps)

end Point

/-- The points of a run that starts at a given one: the tasks under way, innermost first, each
directly a part of the next. -/
inductive Reached (limits : Limits) (start : Point) : List Point → Prop where
  | start : Reached limits start [start]
  | part {p q : Point} {ps : List Point} (h : Reached limits start (p :: ps))
      (mem : q ∈ p.parts limits) : Reached limits start (q :: p :: ps)

/-- The number of script function bodies among the tasks under way. -/
def bodies (ps : List Point) : Nat := ps.countP (·.task.isBody)

end Linework
