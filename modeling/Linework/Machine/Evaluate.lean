import Linework.Machine

/-!
# Evaluating expressions

The value of an expression in the current scope. Calls are left to a parameter, so that evaluation
is a recursion over the tree alone.
-/

namespace Linework

/-- How a function is called by name, with the values of its arguments. -/
abbrev Invoke := String → List Value → Run Value

/-- The value of an operator before a value. -/
def unaryValue (op : TokenKind) (v : Value) : Value :=
  match op with
  | .minus => .number (-v.toNumber)
  | .bang => .bool !v.isTruthy
  | _ => .undefined

/-- Whether two values stand in an order that `accepts` allows. -/
def ordered (accepts : Ordering → Bool) (a b : Value) : Value :=
  .bool ((a.compare? b).any accepts)

/-- The value of an operator between two values. -/
def binaryValue (op : TokenKind) (a b : Value) : Value :=
  match op with
  | .plus => a.plus b
  | .minus => a.minus b
  | .star => a.times b
  | .slash => a.dividedBy b
  | .caret => a.power b
  | .equalEqual => .bool (a.alike b)
  | .bangEqual => .bool !a.alike b
  | .greater => ordered Ordering.isGT a b
  | .greaterEqual => ordered Ordering.isGE a b
  | .less => ordered Ordering.isLT a b
  | .lessEqual => ordered Ordering.isLE a b
  | _ => .undefined

/-- A finite number without a fraction. -/
def isInteger (x : Float) : Bool := x.isFinite && x.floor == x

/-- Whether a range with these bounds gives integers. -/
def RangeMode.isIntegral : RangeMode → Float → Float → Bool
  | .auto, low, high => isInteger low && isInteger high
  | .integer, _, _ => true
  | .real, _, _ => false

/-- The number at the share `u` of a range. Halves round up. -/
def RangeMode.pick (mode : RangeMode) (low high u : Float) : Float :=
  let sample := low + (high - low) * u
  if mode.isIntegral low high then (sample + 0.5).floor else sample

namespace Expr

variable (invoke : Invoke)

mutual

/-- The value of an expression. -/
def eval : Expr → Run Value
  | .literal v => pure v
  | .ref name => Run.lookup name.lexeme
  | .group inner => inner.eval
  | .unary op right => do
    let v ← right.eval
    return unaryValue op.kind v
  | .binary left op right => do
    let a ← left.eval
    let b ← right.eval
    return binaryValue op.kind a b
  | .call callee arguments => do
    let values ← evalAll arguments
    invoke callee.lexeme values
  | .range low high mode => do
    let a ← low.eval
    let b ← high.eval
    let u ← Run.draw
    return .number (mode.pick a.toNumber b.toNumber u)
  | .logic first rest => do
    let v ← first.eval
    evalLogic v.isTruthy rest
termination_by structural e => e

/-- The values of expressions, from left to right. -/
def evalAll : List Expr → Run (List Value)
  | [] => pure []
  | e :: es => do
    let v ← e.eval
    let vs ← evalAll es
    return v :: vs
termination_by structural es => es

/-- The rest of a chain of conditions after a given truth value. The first true side of an `||` and
the first false side of an `&&` decide the whole chain, and nothing after them is evaluated. -/
def evalLogic (sofar : Bool) : List (Token × Expr) → Run Value
  | [] => pure (.bool sofar)
  | (connective, e) :: rest =>
    if connective.kind = .orOr then
      if sofar then pure (.bool true)
      else do
        let v ← e.eval
        if v.isTruthy then pure (.bool true) else evalLogic false rest
    else
      if sofar then do
        let v ← e.eval
        if v.isTruthy then evalLogic true rest else pure (.bool false)
      else pure (.bool false)
termination_by structural es => es

end

end Expr

/-- The value of a formula. One that cannot be read is reported and undefined. -/
def Formula.eval (invoke : Invoke) (f : Formula) : Run Value :=
  match f.compiled with
  | .ok e => e.eval invoke
  | .error error => do
    Run.diagnose (.badFormula error f.source)
    return .undefined

/-- The value of a formula that may be missing. -/
def Formula.evalOptional (invoke : Invoke) : Option Formula → Run Value
  | some f => f.eval invoke
  | none => pure .undefined

end Linework
