import Linework.Proofs.Frames
import Linework.Proofs.Universal
import Linework.Session

/-!
# Compound assignments

`x += e` is `x = x + (e)`, and the same for the other operators of expressions. The one reads the
variable after the value of `e` is known and the other before, so that they agree as long as `e`
leaves the variable alone.
-/

namespace Linework

/-- The operator between values that a compound assignment applies. The remainder has none. -/
def AssignOp.operator? : AssignOp → Option TokenKind
  | assign | remainder => none
  | add => some .plus
  | subtract => some .minus
  | multiply => some .star
  | divide => some .slash

/-- The operator of an assignment does what it does between values. -/
lemma AssignOp.apply_eq_binaryValue {op : AssignOp} {kind : TokenKind}
    (h : op.operator? = some kind) (current value : Value) :
    op.apply current value = binaryValue kind current value := by
  cases op <;> cases h <;> rfl

namespace Run

/-- Looking up a variable that is bound. -/
lemma on_lookup {m : Machine} {name : String} {value : Value}
    (bound : m.scope.get? name = some value) : (lookup name).on m = some (.ok value, m) := by
  rw [lookup, on_bind, on_read]
  simp only [bound]
  rfl

/-- An action on a line of its own. -/
lemma on_atLine {α : Type} (line : Nat) (x : Run α) (m : Machine) :
    (atLine line >>= fun _ => x).on m = x.on { m with line := line } := rfl

/-- Changing a variable that is bound by an operator is changing it to what the operator gives. -/
lemma on_store {m : Machine} {name : String} {current : Value} {op : AssignOp} {kind : TokenKind}
    (operator : op.operator? = some kind) (bound : m.scope.get? name = some current)
    (value : Value) :
    (store name op value).on m = (store name .assign (binaryValue kind current value)).on m := by
  have same := AssignOp.apply_eq_binaryValue operator current value
  cases op with
  | assign | remainder => cases operator
  | add | subtract | multiply | divide =>
    unfold store
    simp only [on_bind, on_read, bound, same]

end Run

section

variable {invoke : Invoke} {op : AssignOp} {x sign : Token} {e : Expr} {m : Machine}
  {current : Value}

/-- The two assignments from a machine on which the expression leaves the variable alone. -/
lemma on_compound (operator : op.operator? = some sign.kind)
    (bound : m.scope.get? x.lexeme = some current)
    (kept : ∀ v n, (e.eval invoke).on m = some (.ok v, n) → n.scope.get? x.lexeme = some current)
    (line : Nat) (source source' : String) :
    ((Instruction.assign x.lexeme op ⟨source, .ok e⟩).execute invoke line).on m =
      ((Instruction.assign x.lexeme .assign
        ⟨source', .ok (.binary (.ref x) sign (.group e))⟩).execute invoke line).on m := by
  have one : Formula.eval invoke ⟨source, .ok e⟩ = e.eval invoke := rfl
  have parts : Formula.eval invoke ⟨source', .ok (.binary (.ref x) sign (.group e))⟩ =
      Run.lookup x.lexeme >>= fun a => e.eval invoke >>= fun b =>
        pure (binaryValue sign.kind a b) := rfl
  have other : (Formula.eval invoke ⟨source', .ok (.binary (.ref x) sign (.group e))⟩).on m =
      (e.eval invoke >>= fun v => pure (binaryValue sign.kind current v)).on m := by
    rw [parts, Run.on_bind, Run.on_lookup bound]
  rw [Instruction.execute, Instruction.execute, Run.on_bind, Run.on_bind, one, other, Run.on_bind]
  cases ended : (e.eval invoke).on m with
  | none => rfl
  | some p =>
    obtain ⟨r, n⟩ := p
    cases r with
    | error i => rfl
    | ok v => exact Run.on_store operator (kept v n ended) v

end

/-! ### Going back to where one was -/

/-- The context is the same, and so is whether a function is running. -/
def placed : Law where
  holds _ := True
  step m n := n.scope.here = m.scope.here ∧ n.scope.own.isSome = m.scope.own.isSome
  ends _ := True
  refl _ := ⟨rfl, rfl⟩
  trans h h' := ⟨h'.1.trans h.1, h'.2.trans h.2⟩
  keeps _ _ := trivial

/-- However an action ends, it is back where it was. -/
lemma universal_placed (limits : Limits) : placed.Universal limits where
  holds _ := trivial
  ends _ := trivial
  opens _ _ := ⟨rfl, rfl⟩
  other scope _ _ := ⟨congrArg Scope.here scope, congrArg (·.own.isSome) scope⟩
  values {m s} same := by
    have own : s.own.map Frame.functions = m.scope.own.map Frame.functions := congrArg (·.1) same
    refine ⟨congrArg (·.2.2) same, ?_⟩
    rw [← Option.isSome_map (f := Frame.functions), own, Option.isSome_map]
  contexts _ := ⟨rfl, rfl⟩
  log _ _ _ := ⟨rfl, rfl⟩
  grant _ := ⟨rfl, rfl⟩
  refuse _ := ⟨rfl, rfl⟩
  call _ _ := ⟨rfl, rfl⟩
  inside _ := ⟨rfl, rfl⟩

/-- The value of an expression on a line of a script leaves a variable alone that is in scope. -/
def Machine.Spares (m : Machine) (line : Nat) (invoke : Invoke) (e : Expr) (name : String) : Prop :=
  ∀ v n, (Run.atLine line >>= fun _ => e.eval invoke).on m = some (.ok v, n) →
    n.scope.get? name = m.scope.get? name

/-- An expression without calls leaves all variables alone. -/
lemma Machine.spares_of_callFree {invoke : Invoke} {e : Expr} (free : e.callees = []) (m : Machine)
    (line : Nat) (name : String) : m.Spares line invoke e name := by
  intro v n ended
  rw [Run.on_atLine] at ended
  obtain ⟨same, -⟩ := (callFree_eval free _ _ n trivial ended).1
  rw [same]

namespace Engine

/-- The value of an expression on a line of a script leaves a variable alone that a context sees. -/
def Spares (engine : Engine) (c line : Nat) (invoke : Invoke) (e : Expr) (name : String) : Prop :=
  ∀ v after, engine.performIn c (Run.atLine line >>= fun _ => e.eval invoke) =
    some (.ok v, after) → after.contexts.get? c name = engine.contexts.get? c name

/-- An engine in a context is a machine whose scope is that context. -/
lemma spares_iff {engine : Engine} {c line fuel : Nat} {limits : Limits} {e : Expr}
    {name : String} :
    engine.Spares c line (callByName limits fuel) e name ↔
      (engine.machine.behind none c).Spares line (callByName limits fuel) e name := by
  have u := universal_placed limits
  have obeys : Obeys (placed.onLine line) (e.eval (callByName limits fuel)) :=
    obeys_eval e (u.admits u.regular.callByName _ _)
  have back {v n} (ended : (Run.atLine line >>= fun _ => e.eval (callByName limits fuel)).on
      (engine.machine.behind none c) = some (.ok v, n)) :
      n.scope.get? name = n.scope.contexts.get? c name := by
    obtain ⟨⟨here, own⟩, -⟩ := (obeys _ _ n ⟨trivial, rfl⟩ ended).1
    -- evaluating ends where it started, in the context `c` and outside of any function
    have outside : n.scope.own = none := Option.not_isSome_iff_eq_none.mp (by rw [own]; nofun)
    rw [Scope.get?, outside, here]
    rfl
  constructor
  · intro spares v n ended
    rw [back ended]
    refine spares v { engine with machine := n } ?_
    rw [performIn, perform, ended]
    rfl
  · intro spares v after performed
    obtain ⟨⟨r, n⟩, ended, same⟩ := Option.map_eq_some_iff.mp performed
    cases same
    rw [contexts, ← back ended]
    exact spares v n ended

end Engine

/-- A compound assignment of a variable that is declared ends like the assignment of the operator's
value, and leaves the same machine: the same contexts, diagnostics, output and random numbers, also
if the expression is aborted. The expression has to leave the variable alone, as every expression
without a call does. This holds in the body of a function as well as in any context of an engine. -/
theorem compound_assign_eq_binary (limits : Limits) (fuel line : Nat) {op : AssignOp}
    {x sign : Token} (operator : op.operator? = some sign.kind) (e : Expr)
    (source source' : String) :
    let invoke := callByName limits fuel
    let compound := (Statement.plain line (.assign x.lexeme op ⟨source, .ok e⟩)).execute limits
      invoke fuel
    let plain := (Statement.plain line (.assign x.lexeme .assign
      ⟨source', .ok (.binary (.ref x) sign (.group e))⟩)).execute limits invoke fuel
    (∀ m : Machine, (m.scope.get? x.lexeme).isSome →
      (m.Spares line invoke e x.lexeme → compound.on m = plain.on m) ∧
      (e.callees = [] → m.Spares line invoke e x.lexeme)) ∧
    ∀ (engine : Engine) (c : Nat), (engine.contexts.get? c x.lexeme).isSome →
      (engine.Spares c line invoke e x.lexeme →
        engine.performIn c compound = engine.performIn c plain) ∧
      (e.callees = [] → engine.Spares c line invoke e x.lexeme) := by
  dsimp only
  have same (m : Machine) (bound : (m.scope.get? x.lexeme).isSome)
      (spares : m.Spares line (callByName limits fuel) e x.lexeme) :
      ((Statement.plain line (.assign x.lexeme op ⟨source, .ok e⟩)).execute limits
        (callByName limits fuel) fuel).on m =
      ((Statement.plain line (.assign x.lexeme .assign
        ⟨source', .ok (.binary (.ref x) sign (.group e))⟩)).execute limits
        (callByName limits fuel) fuel).on m := by
    obtain ⟨current, value⟩ := Option.isSome_iff_exists.mp bound
    rw [Statement.execute, Statement.execute, Run.on_atLine, Run.on_atLine]
    -- the value that the operator reads first is still there after `e`
    refine on_compound (m := { m with line := line }) operator value ?_ line source source'
    exact fun v n ended => (spares v n ended).trans value
  refine ⟨fun m bound => ⟨same m bound, ?_⟩, fun engine c bound => ⟨fun spares => ?_, ?_⟩⟩
  · exact fun free => m.spares_of_callFree free line _
  · exact congrArg (Option.map _)
      (same (engine.machine.behind none c) bound (Engine.spares_iff.mp spares))
  · exact fun free => Engine.spares_iff.mpr (Machine.spares_of_callFree free _ line _)

/-- A function that changes the global `y` and hands back `b`. -/
def mark : Definition where
  name := "mark"
  params := []
  body := [.plain 1 (.assign "y" .assign ⟨"x", .ok (.ref ⟨.identifier, "x", none, 1⟩)⟩),
    .plain 2 (.yield (some ⟨"\"b\"", .ok (.literal (.text "b"))⟩))]

/-- An engine with the globals `x` and `y` in a root, and an empty context below. -/
def marking : Engine :=
  Engine.quiet.withContexts ((Forest.make []
    ⟨[("x", .text "a"), ("y", .null)], [mark.toFunction]⟩ none).make Frame.empty (some 0))

/-- The call of the function. -/
def marked : Expr := .call ⟨.identifier, "mark", none, 6⟩ []

/-- The characters of a text. -/
def Value.text? : Value → Option String
  | .text s => some s
  | _ => none

/-- A value with the characters of a text is that text. -/
lemma Value.eq_of_text? {found : Option Value} {s : String}
    (h : found.bind Value.text? = some s) : found = some (.text s) := by
  obtain ⟨v, rfl, text⟩ := Option.bind_eq_some_iff.mp h
  cases v <;> cases text
  rfl

/-- The function is called in the context below, and changes another variable than the assigned
one. -/
theorem compound_assign_eq_binary_mark :
    (marking.contexts.get? 1 "x").isSome ∧
    marking.Spares 1 5 (callByName Limits.default 2) marked "x" ∧
    ∃ r after, marking.performIn 1 ((Statement.plain 5 (.assign "x" .assign ⟨"x + (mark())",
        .ok (.binary (.ref ⟨.identifier, "x", none, 1⟩) ⟨.plus, "+", none, 3⟩
          (.group marked))⟩)).execute Limits.default (callByName Limits.default 2) 2) =
        some (r, after) ∧
      r.isOk = true ∧ after.contexts.get? 0 "x" = some (.text "ab") ∧
      after.contexts.get? 1 "y" = some (.text "a") := by
  have plus : AssignOp.add.operator? = some (Token.kind ⟨.plus, "+", none, 3⟩) := rfl
  have bound : (marking.contexts.get? 1 (Token.lexeme ⟨.identifier, "x", none, 1⟩)).isSome := rfl
  have kept : (marking.performIn 1 (Run.atLine 5 >>= fun _ =>
      marked.eval (callByName Limits.default 2))).map
        (fun p => (p.2.contexts.get? 1 "x").bind Value.text?) = some (some "a") := by
    decide +kernel
  have spares : marking.Spares 1 5 (callByName Limits.default 2) marked "x" := by
    intro v after performed
    rw [performed] at kept
    exact Value.eq_of_text? (Option.some.inj kept)
  have found : (marking.performIn 1 ((Statement.plain 5 (.assign "x" .add
      ⟨"mark()", .ok marked⟩)).execute Limits.default (callByName Limits.default 2) 2)).map
        (fun p => (p.1.isOk, (p.2.contexts.get? 0 "x").bind Value.text?,
          (p.2.contexts.get? 1 "y").bind Value.text?)) = some (true, some "ab", some "a") := by
    decide +kernel
  obtain ⟨-, same⟩ := compound_assign_eq_binary Limits.default 2 5 plus marked "mark()"
    "x + (mark())"
  rw [(same marking 1 bound).1 spares] at found
  obtain ⟨⟨r, after⟩, ended, told⟩ := Option.map_eq_some_iff.mp found
  obtain ⟨ok, rest⟩ := Prod.mk.inj told
  obtain ⟨x, y⟩ := Prod.mk.inj rest
  exact ⟨bound, spares, r, after, ended, ok, Value.eq_of_text? x, Value.eq_of_text? y⟩

end Linework
