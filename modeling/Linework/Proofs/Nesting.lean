import Mathlib.Logic.Basic
import Linework.Proofs.Parsing

/-!
# How deep an accepted expression is

`Expr.nesting` counts the groups, calls, ranges and operators on the deepest path of a tree. Among
the operands of a level, the nesting limit charges one operator to the operand after the first,
two to the next, and so on, and nothing to the first; the tree puts all the operators above the
first operand and the one after it, and one above the last. So the limit does not bound the
nesting: `Derivation.reach` is the count of the tree, and the most that an accepted tree is nested
by is 22944.
-/

namespace Linework

mutual

/-- The most groups, calls, ranges and operators on a path from the root to a leaf. -/
@[simp] def Expr.nesting : Expr → Nat
  | .literal _ => 0
  | .ref _ => 0
  | .group inner => inner.nesting + 1
  | .unary _ right => right.nesting + 1
  | .binary left _ right => max left.nesting right.nesting + 1
  | .call _ arguments => Expr.argumentNesting arguments + 1
  | .range low high _ => max low.nesting high.nesting + 1
  | .logic first rest => max first.nesting (Expr.restNesting rest)
termination_by structural e => e

/-- The nesting of the deepest one of some arguments. -/
@[simp] def Expr.argumentNesting : List Expr → Nat
  | [] => 0
  | e :: es => max e.nesting (Expr.argumentNesting es)
termination_by structural es => es

/-- The nesting of the deepest one of some conditions. -/
@[simp] def Expr.restNesting : List (Token × Expr) → Nat
  | [] => 0
  | (_, e) :: rest => max e.nesting (Expr.restNesting rest)
termination_by structural es => es

end

namespace Grammar
open Linework.Expr (nestingLimit levels)

/-- The nesting of the right operands of a level, each below its own operator and the later ones. -/
@[simp] def chainNesting : List (Token × Expr) → Nat
  | [] => 0
  | (_, e) :: rest => max (e.nesting + (rest.length + 1)) (chainNesting rest)

/-- The first operand of a level is below all its operators. -/
lemma nesting_operate (left : Expr) (rest : List (Token × Expr)) :
    (operate left rest).nesting = max (left.nesting + rest.length) (chainNesting rest) := by
  induction rest generalizing left with
  | nil => simp [operate]
  | cons operation rest ih =>
    obtain ⟨op, right⟩ := operation
    have step := ih (.binary left op right)
    simp only [operate, List.foldl_cons] at step ⊢
    rw [step]
    simp only [Expr.nesting, chainNesting, List.length_cons]
    omega

/-- The nesting of what a phrase stands for. -/
@[simp] def Symbol.nesting : (s : Symbol) → s.Meaning → Nat
  | .conditions, rest => Expr.restNesting rest
  | .operations _ _, rest => chainNesting rest
  | .arguments, es => Expr.argumentNesting es
  | .mode, _ => 0
  | .logic, e => Expr.nesting e
  | .binary _, e => Expr.nesting e
  | .unary, e => Expr.nesting e
  | .primary, e => Expr.nesting e

namespace Derivation

/-- The operators in what follows the first operand of a level. -/
@[simp] def operators : {s : Symbol} → Derivation s → Nat
  | _, .operation _ _ rest => rest.operators + 1
  | _, _ => 0

/-- The nesting that a derivation leads to. Among the operands of a level, the first one is below
all the operators, and any other one below the operator before it and those after it. -/
@[simp] def reach : {s : Symbol} → Derivation s → Nat
  | _, .logic first rest => max first.reach rest.reach
  | _, .noCondition => 0
  | _, .condition _ e rest => max e.reach rest.reach
  | _, .operand e => e.reach
  | _, .level first rest => max (first.reach + rest.operators) rest.reach
  | _, .noOperation => 0
  | _, .operation _ e rest => max (e.reach + (rest.operators + 1)) rest.reach
  | _, .sign _ e => e.reach + 1
  | _, .unsigned e => e.reach
  | _, .literal _ => 0
  | _, .name _ => 0
  | _, .emptyCall _ _ _ => 1
  | _, .call _ _ first rest _ => max first.reach rest.reach + 1
  | _, .group _ inner _ => inner.reach + 1
  | _, .range _ low _ high _ _ => max low.reach high.reach + 1
  | _, .noArgument => 0
  | _, .argument _ e rest => max e.reach rest.reach
  | _, .noMode => 0
  | _, .flag _ _ => 0

/-- The operators of one level are counted by the tree. -/
lemma length_tree {op ops} : ∀ rest : Derivation (.operations op ops),
    List.length rest.tree = rest.operators
  | .noOperation => rfl
  | .operation _ _ rest => congrArg (· + 1) rest.length_tree

/-- The nesting of a tree is the reach of its derivation. -/
lemma nesting_tree {s} (d : Derivation s) : s.nesting d.tree = d.reach := by
  induction d with
  | logic first rest ihFirst ihRest =>
    cases rest with
    | noCondition =>
      rw [reach, ← ihFirst]
      exact (Nat.max_zero _).symm
    | condition => exact congrArg₂ max ihFirst ihRest
  | condition connective e rest ihE ihRest => exact congrArg₂ max ihE ihRest
  | level first rest ihFirst ihRest =>
    simp only [Symbol.nesting, tree, reach] at ihFirst ihRest ⊢
    rw [nesting_operate, ihFirst, ihRest, rest.length_tree]
  | operation operator e rest ihE ihRest =>
    simp only [Symbol.nesting, tree, reach, chainNesting] at ihE ihRest ⊢
    rw [ihE, ihRest, rest.length_tree]
  | argument comma e rest ihE ihRest => exact congrArg₂ max ihE ihRest
  | call callee l first rest r ihFirst ihRest =>
    exact congrArg (· + 1) (congrArg₂ max ihFirst ihRest)
  | range l low colon high mode r ihLow ihHigh _ =>
    exact congrArg (· + 1) (congrArg₂ max ihLow ihHigh)
  | sign operator e ih | group l e r ih => exact congrArg (· + 1) ih
  | operand e ih | unsigned e ih => exact ih
  | noCondition | noOperation | literal | name | emptyCall | noArgument | noMode | flag => rfl

/-- Each operator of a level needs room. -/
lemma operators_le_demand {s} (d : Derivation s) : d.operators ≤ d.demand := by
  induction d with
  | operation operator e rest _ ih =>
    simp only [operators, demand]
    omega
  | _ => exact Nat.zero_le _

end Derivation

/-- The most nesting that an operand reaches with a demand. Each further level of nesting admits
as many operators as it has room for, on each of the eleven levels. -/
@[simp] def peak : Nat → Nat
  | 0 => 0
  | b + 1 => peak b + 11 * b + 1

/-- The most nesting that a phrase reaches with a demand. -/
@[simp] def Symbol.ceiling : Symbol → Nat → Nat
  | .binary ops, b => ops.length * b + peak b
  | .operations _ ops, b => (ops.length + 1) * b + peak b
  | .unary, b | .primary, b => peak b
  | .logic, b | .conditions, b | .arguments, b | .mode, b => 11 * b + peak b

/-- What holds one more holds one. -/
lemma exists_succ {n b : Nat} (h : 1 + n ≤ b) : ∃ b', b = b' + 1 ∧ n ≤ b' :=
  ⟨b - 1, by omega, by omega⟩

/-- No derivation reaches beyond the ceiling of its demand. -/
lemma Derivation.reach_le {s} (d : Derivation s) {b} (h : d.demand ≤ b) :
    d.reach ≤ s.ceiling b := by
  induction d generalizing b with
  | logic first rest ihFirst ihRest | condition _ first rest ihFirst ihRest
  | argument _ first rest ihFirst ihRest =>
    simp only [demand] at h
    have first_le := ihFirst (b := b) (by omega)
    have rest_le := ihRest (b := b) (by omega)
    simp only [reach, Symbol.ceiling] at first_le rest_le ⊢
    exact Nat.max_le.mpr ⟨first_le, rest_le⟩
  | level first rest ihFirst ihRest =>
    simp only [demand] at h
    have first_le := ihFirst (b := b) (by omega)
    have rest_le := ihRest (b := b) (by omega)
    have few := rest.operators_le_demand
    simp only [reach, Symbol.ceiling, List.length_cons, Nat.add_mul] at first_le rest_le ⊢
    omega
  | operation operator e rest ihE ihRest =>
    -- the operand has one level of nesting less to spend, on each of the levels below it
    obtain ⟨b, rfl, less⟩ := exists_succ h
    have e_le := ihE (b := b) (by omega)
    have rest_le := ihRest (b := b) (by omega)
    have few := rest.operators_le_demand
    simp only [reach, Symbol.ceiling, peak, Nat.add_mul, Nat.mul_add] at e_le rest_le ⊢
    omega
  | operand e ih =>
    have e_le := ih h
    simp only [reach, Symbol.ceiling] at e_le ⊢
    omega
  | unsigned e ih => exact ih h
  | sign operator e ih | group l e r ih =>
    obtain ⟨b, rfl, less⟩ := exists_succ h
    have e_le := ih less
    simp only [reach, Symbol.ceiling, peak] at e_le ⊢
    omega
  | call callee l first rest r ihFirst ihRest | range l first colon rest mode r ihFirst ihRest =>
    obtain ⟨b, rfl, less⟩ := exists_succ h
    have first_le := ihFirst (b := b) (by omega)
    have rest_le := ihRest (b := b) (by omega)
    simp only [reach, Symbol.ceiling, peak] at first_le rest_le ⊢
    omega
  | emptyCall =>
    obtain ⟨b, rfl, -⟩ := exists_succ (n := 0) h
    simp only [reach, Symbol.ceiling, peak]
    omega
  | noCondition | noOperation | literal | name | noArgument | noMode | flag => exact Nat.zero_le _

namespace Derivation

/-- Lifting reaches no further. -/
@[simp] lemma reach_lift (ops : List TokenKind) (e : Derivation .unary) :
    (lift ops e).reach = e.reach := by
  induction ops with
  | nil => rfl
  | cons op ops ih => simp [lift, ih]

/-- Some operators of one level, each with a name on its right. -/
def row (op : TokenKind) (ops : List TokenKind) : Nat → Derivation (.operations op ops)
  | 0 => .noOperation
  | k + 1 => .operation ⟨⟨op, "", none, 1⟩, List.mem_singleton.mpr rfl⟩ (lift ops (ofName "a" 1))
      (row op ops k)

/-- A row of operators needs as much room as it has operators, and reaches as far. -/
lemma row_spec (op : TokenKind) (ops : List TokenKind) (k : Nat) :
    (row op ops k).demand = k ∧ (row op ops k).operators = k ∧ (row op ops k).reach = k ∧
      (row op ops k).Known := by
  induction k with
  | zero => exact ⟨rfl, rfl, rfl, trivial⟩
  | succ k ih =>
    obtain ⟨demand_eq, operators_eq, reach_eq, known⟩ := ih
    refine ⟨?_, ?_, ?_, ?_, known⟩
    · simp only [row, demand, demand_lift, ofName, demand_eq]
      omega
    · simp only [row, operators, operators_eq]
    · simp only [row, reach, reach_lift, ofName, operators_eq, reach_eq]
      omega
    · exact (known_lift ops _).mpr trivial

/-- An operand below some operators of each level. -/
def climb (k : Nat) (e : Derivation .unary) : (ops : List TokenKind) → Derivation (.binary ops)
  | [] => .operand e
  | op :: ops => .level (climb k e ops) (row op ops k)

/-- Climbing the levels reaches further with each level, in the same room. -/
lemma climb_spec {k : Nat} {e : Derivation .unary} (ops : List TokenKind) (demand_eq : e.demand = k)
    (known : e.Known) :
    (climb k e ops).demand = k ∧ (climb k e ops).reach = ops.length * k + e.reach ∧
      (climb k e ops).Known := by
  induction ops with
  | nil => exact ⟨demand_eq, (by simp [climb]), known⟩
  | cons op ops ih =>
    obtain ⟨demand_ih, reach_ih, known_ih⟩ := ih
    obtain ⟨demand_row, operators_row, reach_row, known_row⟩ := row_spec op ops k
    refine ⟨?_, ?_, known_ih, known_row⟩
    · simp only [climb, demand, demand_ih, demand_row]
      omega
    · simp only [climb, reach, reach_ih, operators_row, reach_row, List.length_cons, Nat.add_mul]
      omega

/-- Groups within each other, each below as many operators of each level as there is room for. -/
def tower : Nat → Derivation .unary
  | 0 => ofName "a" 1
  | k + 1 => .unsigned (.group ⟨⟨.leftParen, "(", none, 1⟩, by decide⟩
      (single (climb k (tower k) levels)) ⟨⟨.rightParen, ")", none, 1⟩, by decide⟩)

/-- A tower reaches as far as can be reached in its room. -/
lemma tower_spec (k : Nat) : (tower k).demand = k ∧ (tower k).reach = peak k ∧ (tower k).Known := by
  induction k with
  | zero => exact ⟨rfl, rfl, trivial⟩
  | succ k ih =>
    obtain ⟨demand_ih, reach_ih, known_ih⟩ := ih
    obtain ⟨demand_eq, reach_eq, known⟩ := climb_spec levels demand_ih known_ih
    have eleven : levels.length = 11 := rfl
    refine ⟨?_, ?_, known, trivial⟩
    · simp only [tower, single, demand, demand_eq]
      omega
    · simp only [tower, single, reach, peak, reach_eq, reach_ih, eleven]
      omega

end Derivation

/-- An accepted tree is nested as deeply as its derivation reaches. -/
lemma parse_eq_ok_reach {tokens : List Token} {e : Expr} (h : Expr.parse tokens = .ok e) :
    ∃ d : Derivation .logic,
      d.yield = text tokens ∧ d.demand ≤ nestingLimit ∧ d.Known ∧ e.nesting = d.reach := by
  obtain ⟨d, yield, room, known, rfl⟩ := parse_eq_ok.mp h
  exact ⟨d, yield, room, known, d.nesting_tree⟩

/-- An accepted tree is nested by at most 64 exactly if its derivation reaches no further, and by
at most 22944 in any case. -/
theorem nesting_le_iff_reach_le (tokens : List Token) :
    ((∀ e, Expr.parse tokens = .ok e → e.nesting ≤ 64) ↔
      ∀ d : Derivation .logic, d.yield = text tokens → d.Known → d.demand ≤ 64 → d.reach ≤ 64) ∧
    ∀ e, Expr.parse tokens = .ok e → e.nesting ≤ 22944 := by
  refine ⟨⟨?_, ?_⟩, ?_⟩
  · intro h d yield known room
    have e_le := h d.tree (parse_eq_ok.mpr ⟨d, yield, room, known, rfl⟩)
    rw [← d.nesting_tree]
    exact e_le
  · intro h e parsed
    obtain ⟨d, yield, room, known, nesting_eq⟩ := parse_eq_ok_reach parsed
    rw [nesting_eq]
    exact h d yield known room
  · intro e parsed
    obtain ⟨d, -, room, -, nesting_eq⟩ := parse_eq_ok_reach parsed
    rw [nesting_eq]
    exact d.reach_le room

/-- There is an accepted tree that is nested by 22944. -/
theorem exists_nesting_eq_ceiling :
    ∃ (tokens : List Token) (e : Expr), tokens.getLast?.map Token.kind = some .endOfText ∧
      Expr.parse tokens = .ok e ∧ e.nesting = 22944 := by
  obtain ⟨demand_tower, reach_tower, known_tower⟩ := Derivation.tower_spec 64
  obtain ⟨demand_eq, reach_eq, known⟩ := Derivation.climb_spec levels demand_tower known_tower
  let d := Derivation.single (.climb 64 (.tower 64) levels)
  have ends : text (d.yield ++ [⟨.endOfText, "", none, 1⟩]) = d.yield :=
    text_append (d.not_endOfText trivial) (by rintro t ⟨⟩; rfl)
  refine ⟨d.yield ++ [⟨.endOfText, "", none, 1⟩], d.tree, ?_, ?_, ?_⟩
  · rw [List.getLast?_concat]
    rfl
  · refine parse_eq_ok.mpr ⟨d, ends.symm, ?_, ⟨known, trivial⟩, rfl⟩
    simp only [d, Derivation.single, Derivation.demand, demand_eq]
    decide
  · have nesting_eq : Expr.nesting d.tree = d.reach := d.nesting_tree
    rw [nesting_eq]
    simp only [d, Derivation.single, Derivation.reach, reach_eq, reach_tower]
    decide

/-- Some signs before a name, ending at column 65. -/
def signs : Nat → Derivation .unary
  | 0 => .ofName "a" 65
  | k + 1 => .sign ⟨⟨.minus, "-", none, 64 - k⟩, by simp⟩ (signs k)

/-- Signs need as much room as they reach far. -/
lemma signs_spec (k : Nat) : (signs k).demand = k ∧ (signs k).reach = k ∧ (signs k).Known := by
  induction k with
  | zero => exact ⟨rfl, rfl, trivial⟩
  | succ k ih =>
    obtain ⟨demand_eq, reach_eq, known⟩ := ih
    refine ⟨?_, ?_, known⟩
    · simp only [signs, Derivation.demand, demand_eq]
      omega
    · simp only [signs, Derivation.reach, reach_eq]

/-- A comparison whose left side has 64 signs. -/
def deepComparison : Derivation .logic :=
  .single (.level (.lift _ (signs 64)) (.operation ⟨⟨.less, "<", none, 67⟩, by decide⟩
    (.lift _ (.ofName "a" 69)) .noOperation))

/-- The operator above 64 signs is not charged to them. -/
theorem parse_accepts_deepComparison :
    ∃ e, Expr.parse (deepComparison.yield ++ [⟨.endOfText, "", none, 70⟩]) = .ok e ∧
      e.nesting = 65 := by
  obtain ⟨demand_eq, reach_eq, known⟩ := signs_spec 64
  refine ⟨deepComparison.tree, parse_eq_ok.mpr ⟨deepComparison, ?_, ?_, ?_, rfl⟩, ?_⟩
  · exact (text_append (deepComparison.not_endOfText trivial) (by rintro t ⟨⟩; rfl)).symm
  · simp only [deepComparison, Derivation.single, Derivation.demand, Derivation.demand_lift,
      Derivation.ofName, demand_eq]
    decide
  · refine ⟨⟨(Derivation.known_lift _ _).mpr known, ?_, trivial⟩, trivial⟩
    exact (Derivation.known_lift _ _).mpr trivial
  · rw [show Expr.nesting deepComparison.tree = deepComparison.reach from
      deepComparison.nesting_tree]
    simp only [deepComparison, Derivation.single, Derivation.reach, Derivation.operators,
      Derivation.reach_lift, Derivation.ofName, reach_eq]
    decide

end Grammar

end Linework
