import Mathlib.Logic.Basic
import Linework.Proofs.Parsing
import Linework.Machine.Evaluate

/-!
# Trees without columns

The places of tokens have no meaning. Tokens that are moved to other columns are read as the same
tree with other columns (`parse_moved`), and trees that are the same up to columns have the same
value (`eval_placeless`).
-/

namespace Linework

namespace Token

/-- The token in no place. -/
def placeless (t : Token) : Token := { t with column := 0 }

/-- The token in the place that `g` gives it. -/
def moved (g : Token → Nat) (t : Token) : Token := { t with column := g t }

end Token

namespace Expr

mutual

/-- The tree with all its tokens in no place. -/
@[simp] def placeless : Expr → Expr
  | .literal v => .literal v
  | .ref name => .ref name.placeless
  | .group inner => .group inner.placeless
  | .unary op right => .unary op.placeless right.placeless
  | .binary left op right => .binary left.placeless op.placeless right.placeless
  | .call callee arguments => .call callee.placeless (placelessAll arguments)
  | .range low high mode => .range low.placeless high.placeless mode
  | .logic first rest => .logic first.placeless (placelessLogic rest)
termination_by structural e => e

/-- Expressions without the columns of their tokens. -/
@[simp] def placelessAll : List Expr → List Expr
  | [] => []
  | e :: es => e.placeless :: placelessAll es
termination_by structural es => es

/-- The rest of a chain of conditions without the columns of its tokens. -/
@[simp] def placelessLogic : List (Token × Expr) → List (Token × Expr)
  | [] => []
  | (connective, e) :: rest => (connective.placeless, e.placeless) :: placelessLogic rest
termination_by structural es => es

end

variable {invoke : Invoke}

mutual

/-- The value of an expression does not depend on the places of its tokens. -/
lemma eval_placeless : (e : Expr) → e.placeless.eval invoke = e.eval invoke
  | .literal _ | .ref _ => rfl
  | .group inner => eval_placeless inner
  | .unary _ right => by simp only [placeless, eval, eval_placeless right, Token.placeless]
  | .binary left _ right => by
    simp only [placeless, eval, eval_placeless left, eval_placeless right, Token.placeless]
  | .call _ arguments => by
    simp only [placeless, eval, evalAll_placeless arguments, Token.placeless]
  | .range low high _ => by simp only [placeless, eval, eval_placeless low, eval_placeless high]
  | .logic first rest => by
    simp only [placeless, eval, eval_placeless first, evalLogic_placeless rest]

/-- Expressions have the same values without columns. -/
lemma evalAll_placeless : (es : List Expr) → evalAll invoke (placelessAll es) = evalAll invoke es
  | [] => rfl
  | e :: es => by simp only [placelessAll, evalAll, eval_placeless e, evalAll_placeless es]

/-- The rest of a chain of conditions has the same value without columns. -/
lemma evalLogic_placeless : (es : List (Token × Expr)) →
    ∀ sofar, evalLogic invoke sofar (placelessLogic es) = evalLogic invoke sofar es
  | [], _ => rfl
  | (connective, e) :: rest, sofar => by
    simp only [placelessLogic, evalLogic, eval_placeless e, evalLogic_placeless rest,
      Token.placeless]

end

end Expr

namespace Grammar
open Linework.Expr (nestingLimit)

/-- What a phrase stands for, with all tokens in no place. -/
def Symbol.placeless : (s : Symbol) → s.Meaning → s.Meaning
  | .conditions, rest => Expr.placelessLogic rest
  | .operations _ _, rest => Expr.placelessLogic rest
  | .arguments, es => Expr.placelessAll es
  | .mode, m => m
  | .logic, e => Expr.placeless e
  | .binary _, e => Expr.placeless e
  | .unary, e => Expr.placeless e
  | .primary, e => Expr.placeless e

/-- Operators of one level are applied from left to right, with or without columns. -/
lemma placeless_operate (left : Expr) (rest : List (Token × Expr)) :
    (operate left rest).placeless = operate left.placeless (Expr.placelessLogic rest) := by
  induction rest generalizing left with
  | nil => rfl
  | cons operation rest ih => exact ih _

/-- The token in another place is still of one of the kinds. -/
def TokenOf.moved {kinds : List TokenKind} (g : Token → Nat) (t : TokenOf kinds) : TokenOf kinds :=
  ⟨t.1.moved g, t.2⟩

namespace Derivation

/-- The derivation with its tokens in other places. -/
@[simp] def moved (g : Token → Nat) : {s : Symbol} → Derivation s → Derivation s
  | _, .logic first rest => .logic (first.moved g) (rest.moved g)
  | _, .noCondition => .noCondition
  | _, .condition connective e rest => .condition (connective.moved g) (e.moved g) (rest.moved g)
  | _, .operand e => .operand (e.moved g)
  | _, .level first rest => .level (first.moved g) (rest.moved g)
  | _, .noOperation => .noOperation
  | _, .operation operator e rest => .operation (operator.moved g) (e.moved g) (rest.moved g)
  | _, .sign operator e => .sign (operator.moved g) (e.moved g)
  | _, .unsigned e => .unsigned (e.moved g)
  | _, .literal t => .literal (t.moved g)
  | _, .name t => .name (t.moved g)
  | _, .emptyCall callee l r => .emptyCall (callee.moved g) (l.moved g) (r.moved g)
  | _, .call callee l first rest r =>
    .call (callee.moved g) (l.moved g) (first.moved g) (rest.moved g) (r.moved g)
  | _, .group l inner r => .group (l.moved g) (inner.moved g) (r.moved g)
  | _, .range l low colon high mode r =>
    .range (l.moved g) (low.moved g) (colon.moved g) (high.moved g) (mode.moved g) (r.moved g)
  | _, .noArgument => .noArgument
  | _, .argument comma e rest => .argument (comma.moved g) (e.moved g) (rest.moved g)
  | _, .noMode => .noMode
  | _, .flag colon word => .flag (colon.moved g) (word.moved g)

variable (g : Token → Nat)

/-- A derivation whose tokens are moved derives the moved tokens. -/
lemma yield_moved {s} (d : Derivation s) : (d.moved g).yield = d.yield.map (Token.moved g) := by
  induction d <;> simp_all [TokenOf.moved]

/-- It is nested as deeply as before. -/
lemma demand_moved {s} (d : Derivation s) : (d.moved g).demand = d.demand := by
  induction d <;> simp_all

/-- It names the same modes. -/
lemma known_moved {s} (d : Derivation s) : (d.moved g).Known ↔ d.Known := by
  induction d <;> simp_all [TokenOf.moved, Token.moved]

/-- Its tree is the same without columns. -/
lemma placeless_tree_moved {s} (d : Derivation s) :
    s.placeless (d.moved g).tree = s.placeless d.tree := by
  induction d with
  | logic first rest ihFirst ihRest =>
    cases rest with
    | noCondition => exact ihFirst
    | condition => exact congrArg₂ Expr.logic ihFirst ihRest
  | condition connective e rest ihE ihRest => exact congrArg₂ List.cons (congrArg _ ihE) ihRest
  | level first rest ihFirst ihRest =>
    simp only [Symbol.placeless, moved, tree, placeless_operate] at ihFirst ihRest ⊢
    rw [ihFirst, ihRest]
  | operation operator e rest ihE ihRest => exact congrArg₂ List.cons (congrArg _ ihE) ihRest
  | sign operator e ih => exact congrArg (Expr.unary _) ih
  | group l e r ih => exact congrArg Expr.group ih
  | call callee l first rest r ihFirst ihRest =>
    exact congrArg (Expr.call _) (congrArg₂ List.cons ihFirst ihRest)
  | range l low colon high mode r ihLow ihHigh ihMode =>
    simp only [Symbol.placeless, moved, tree, Expr.placeless] at ihLow ihHigh ihMode ⊢
    rw [ihLow, ihHigh, ihMode]
  | argument comma e rest ihE ihRest => exact congrArg₂ List.cons ihE ihRest
  | operand e ih | unsigned e ih => exact ih
  | noCondition | noOperation | literal | name | emptyCall | noArgument | noMode | flag => rfl

end Derivation

/-- Tokens in other places are read as the same tree in other places. -/
lemma parse_moved (g : Token → Nat) {tokens : List Token} {e : Expr}
    (h : Expr.parse tokens = .ok e) :
    ∃ e', Expr.parse (tokens.map (Token.moved g)) = .ok e' ∧ e'.placeless = e.placeless := by
  obtain ⟨d, yield, room, known, rfl⟩ := parse_eq_ok.mp h
  refine ⟨(d.moved g).tree, parse_eq_ok.mpr ⟨d.moved g, ?_, ?_, ?_, rfl⟩, d.placeless_tree_moved g⟩
  · rw [d.yield_moved, yield, text, text, List.takeWhile_map]
    rfl
  · rwa [d.demand_moved]
  · rwa [d.known_moved]

end Grammar

end Linework
