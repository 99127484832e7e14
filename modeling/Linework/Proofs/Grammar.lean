import Mathlib.Tactic.Lemma
import Linework.Expr.Parse

/-!
# The grammar of expressions

Derivations of the expression grammar as data, each with the tokens it spans (`yield`), the tree it
stands for (`tree`) and the nesting it asks for (`demand`). A repetition of the grammar is a symbol
of its own, and the levels of operators are indexed by the operators that are left, so that the
level of no operator is `unary`.

The grammar lets any name stand for the mode of a range; `Known` says that every mode is one that
exists. The headline `Derivation.unique` says that the grammar is unambiguous, whatever the modes
and the nesting.
-/

namespace Linework.Grammar
open Linework.Expr (levels)

/-- The symbols of the grammar. -/
inductive Symbol where
  /-- Conditions between connectives. -/
  | logic
  /-- Further conditions, each after its connective. -/
  | conditions
  /-- The levels of some operators, loosest first. -/
  | binary (ops : List TokenKind)
  /-- Further operands of the level of `op` over the levels of `ops`, each after its operator. -/
  | operations (op : TokenKind) (ops : List TokenKind)
  | unary
  | primary
  /-- Further arguments, each after a comma. -/
  | arguments
  /-- The mode of a range, if it is given. -/
  | mode

/-- What a phrase of a symbol stands for. -/
abbrev Symbol.Meaning : Symbol → Type
  | .conditions | .operations _ _ => List (Token × Expr)
  | .arguments => List Expr
  | .mode => RangeMode
  | _ => Expr

/-- A token of one of some kinds. -/
abbrev TokenOf (kinds : List TokenKind) := { t : Token // t.kind ∈ kinds }

/-- Derivations of a symbol. -/
inductive Derivation : Symbol → Type where
  | logic (first : Derivation (.binary levels)) (rest : Derivation .conditions) :
    Derivation .logic
  | noCondition :
    Derivation .conditions
  | condition (connective : TokenOf [.andAnd, .orOr]) (e : Derivation (.binary levels))
      (rest : Derivation .conditions) :
    Derivation .conditions
  | operand (e : Derivation .unary) :
    Derivation (.binary [])
  | level {op ops} (first : Derivation (.binary ops)) (rest : Derivation (.operations op ops)) :
    Derivation (.binary (op :: ops))
  | noOperation {op ops} :
    Derivation (.operations op ops)
  | operation {op ops} (operator : TokenOf [op]) (e : Derivation (.binary ops))
      (rest : Derivation (.operations op ops)) :
    Derivation (.operations op ops)
  | sign (operator : TokenOf [.bang, .minus]) (e : Derivation .unary) :
    Derivation .unary
  | unsigned (e : Derivation .primary) :
    Derivation .unary
  | literal (t : TokenOf [.number, .stringLiteral]) :
    Derivation .primary
  | name (t : TokenOf [.identifier]) :
    Derivation .primary
  | emptyCall (callee : TokenOf [.identifier]) (l : TokenOf [.leftParen])
      (r : TokenOf [.rightParen]) :
    Derivation .primary
  | call (callee : TokenOf [.identifier]) (l : TokenOf [.leftParen]) (first : Derivation .logic)
      (rest : Derivation .arguments) (r : TokenOf [.rightParen]) :
    Derivation .primary
  | group (l : TokenOf [.leftParen]) (inner : Derivation .logic) (r : TokenOf [.rightParen]) :
    Derivation .primary
  | range (l : TokenOf [.leftBracket]) (low : Derivation .logic) (colon : TokenOf [.colon])
      (high : Derivation .logic) (mode : Derivation .mode) (r : TokenOf [.rightBracket]) :
    Derivation .primary
  | noArgument :
    Derivation .arguments
  | argument (comma : TokenOf [.comma]) (e : Derivation .logic) (rest : Derivation .arguments) :
    Derivation .arguments
  | noMode :
    Derivation .mode
  | flag (colon : TokenOf [.colon]) (word : TokenOf [.identifier]) :
    Derivation .mode

/-- Operators of one level associate to the left. -/
def operate (left : Expr) (rest : List (Token × Expr)) : Expr :=
  rest.foldl (fun left (op, right) => .binary left op right) left

namespace Derivation

/-- The tokens that a derivation spans. -/
@[simp] def yield : {s : Symbol} → Derivation s → List Token
  | _, .logic first rest => first.yield ++ rest.yield
  | _, .noCondition => []
  | _, .condition connective e rest => connective.1 :: (e.yield ++ rest.yield)
  | _, .operand e => e.yield
  | _, .level first rest => first.yield ++ rest.yield
  | _, .noOperation => []
  | _, .operation operator e rest => operator.1 :: (e.yield ++ rest.yield)
  | _, .sign operator e => operator.1 :: e.yield
  | _, .unsigned e => e.yield
  | _, .literal t => [t.1]
  | _, .name t => [t.1]
  | _, .emptyCall callee l r => [callee.1, l.1, r.1]
  | _, .call callee l first rest r => callee.1 :: l.1 :: (first.yield ++ (rest.yield ++ [r.1]))
  | _, .group l inner r => l.1 :: (inner.yield ++ [r.1])
  | _, .range l low colon high mode r =>
    l.1 :: (low.yield ++ colon.1 :: (high.yield ++ (mode.yield ++ [r.1])))
  | _, .noArgument => []
  | _, .argument comma e rest => comma.1 :: (e.yield ++ rest.yield)
  | _, .noMode => []
  | _, .flag colon word => [colon.1, word.1]

/-- What a derivation stands for. A single condition is no chain of conditions. -/
@[simp] def tree : {s : Symbol} → Derivation s → s.Meaning
  | _, .logic first rest => if rest.tree.isEmpty then first.tree else .logic first.tree rest.tree
  | _, .noCondition => []
  | _, .condition connective e rest => (connective.1, e.tree) :: rest.tree
  | _, .operand e => e.tree
  | _, .level first rest => operate first.tree rest.tree
  | _, .noOperation => []
  | _, .operation operator e rest => (operator.1, e.tree) :: rest.tree
  | _, .sign operator e => .unary operator.1 e.tree
  | _, .unsigned e => e.tree
  | _, .literal t => .literal (t.1.literal.getD .undefined)
  | _, .name t => .ref t.1
  | _, .emptyCall callee _ _ => .call callee.1 []
  | _, .call callee _ first rest _ => .call callee.1 (first.tree :: rest.tree)
  | _, .group _ inner _ => .group inner.tree
  | _, .range _ low _ high mode _ => .range low.tree high.tree mode.tree
  | _, .noArgument => []
  | _, .argument _ e rest => e.tree :: rest.tree
  | _, .noMode => RangeMode.auto
  | _, .flag _ word => if word.1.lexeme = "i" then RangeMode.integer else RangeMode.real

/-- The nesting that a derivation asks for. Among the operands of a level, the first one comes for
free and the one after the `i`-th operator is nested by `i`. -/
@[simp] def demand : {s : Symbol} → Derivation s → Nat
  | _, .logic first rest => max first.demand rest.demand
  | _, .noCondition => 0
  | _, .condition _ e rest => max e.demand rest.demand
  | _, .operand e => e.demand
  | _, .level first rest => max first.demand rest.demand
  | _, .noOperation => 0
  | _, .operation _ e rest => 1 + max e.demand rest.demand
  | _, .sign _ e => 1 + e.demand
  | _, .unsigned e => e.demand
  | _, .literal _ => 0
  | _, .name _ => 0
  | _, .emptyCall _ _ _ => 1
  | _, .call _ _ first rest _ => 1 + max first.demand rest.demand
  | _, .group _ inner _ => 1 + inner.demand
  | _, .range _ low _ high _ _ => 1 + max low.demand high.demand
  | _, .noArgument => 0
  | _, .argument _ e rest => max e.demand rest.demand
  | _, .noMode => 0
  | _, .flag _ _ => 0

/-- The modes of the ranges in a derivation are among those that exist. -/
@[simp] def Known : {s : Symbol} → Derivation s → Prop
  | _, .logic first rest => first.Known ∧ rest.Known
  | _, .noCondition => True
  | _, .condition _ e rest => e.Known ∧ rest.Known
  | _, .operand e => e.Known
  | _, .level first rest => first.Known ∧ rest.Known
  | _, .noOperation => True
  | _, .operation _ e rest => e.Known ∧ rest.Known
  | _, .sign _ e => e.Known
  | _, .unsigned e => e.Known
  | _, .literal _ => True
  | _, .name _ => True
  | _, .emptyCall _ _ _ => True
  | _, .call _ _ first rest _ => first.Known ∧ rest.Known
  | _, .group _ inner _ => inner.Known
  | _, .range _ low _ high mode _ => low.Known ∧ high.Known ∧ mode.Known
  | _, .noArgument => True
  | _, .argument _ e rest => e.Known ∧ rest.Known
  | _, .noMode => True
  | _, .flag _ word => word.1.lexeme = "i" ∨ word.1.lexeme = "d"

/-- An operand alone, through the levels of some operators. -/
def lift : (ops : List TokenKind) → Derivation .unary → Derivation (.binary ops)
  | [], e => .operand e
  | _ :: ops, e => .level (lift ops e) .noOperation

/-- Lifting needs no room. -/
@[simp] lemma demand_lift (ops : List TokenKind) (e : Derivation .unary) :
    (lift ops e).demand = e.demand := by
  induction ops with
  | nil => rfl
  | cons op ops ih => simp [lift, ih]

/-- Lifting names no modes. -/
@[simp] lemma known_lift (ops : List TokenKind) (e : Derivation .unary) :
    (lift ops e).Known ↔ e.Known := by
  induction ops with
  | nil => rfl
  | cons op ops ih => simp [lift, ih]

/-- A name alone. -/
def ofName (lexeme : String) (column : Nat) : Derivation .unary :=
  .unsigned (.name ⟨⟨.identifier, lexeme, none, column⟩, List.mem_singleton.mpr rfl⟩)

/-- A single condition. -/
def single (e : Derivation (.binary levels)) : Derivation .logic := .logic e .noCondition

end Derivation

/-- The kinds of tokens that would continue a phrase. -/
def Symbol.continuations : Symbol → List TokenKind
  | .logic | .conditions => .leftParen :: .andAnd :: .orOr :: levels
  | .binary ops => .leftParen :: ops
  | .operations op ops => .leftParen :: op :: ops
  | .unary | .primary => [.leftParen]
  | .arguments => .comma :: .leftParen :: .andAnd :: .orOr :: levels
  | .mode => [.colon]

/-- The levels of a symbol are levels of the grammar. -/
def Symbol.Proper : Symbol → Prop
  | .binary ops => ops <:+ levels
  | .operations op ops => op :: ops <:+ levels
  | _ => True

/-- The next token, if there is one, is of none of some kinds. -/
def Stops (kinds : List TokenKind) (ts : List Token) : Prop := ∀ t ∈ ts.head?, t.kind ∉ kinds

/-- What stops more kinds stops fewer. -/
lemma Stops.mono {kinds kinds' ts} (h : Stops kinds ts) (sub : kinds' ⊆ kinds) :
    Stops kinds' ts :=
  fun t ht hk => h t ht (sub hk)

/-- A token of other kinds stops these. -/
lemma stops_cons {kinds kinds'} (t : TokenOf kinds) (ts : List Token)
    (disjoint : ∀ k ∈ kinds, k ∉ kinds') : Stops kinds' (t.1 :: ts) := by
  rintro u ⟨⟩
  exact disjoint _ t.2

/-- An operator of the grammar is no operator of a tighter level. -/
lemma not_mem_tighter {op ops} (proper : op :: ops <:+ levels) : op ∉ ops := by
  have nodup : (op :: ops).Nodup := proper.sublist.nodup (by decide)
  exact (List.nodup_cons.mp nodup).1

/-- No operator is a parenthesis. -/
lemma ne_leftParen {op ops} (proper : op :: ops <:+ levels) : op ≠ .leftParen := by
  rintro rfl
  exact absurd (proper.subset List.mem_cons_self) (by decide)

/-- What may follow conditions ends the operand before them. -/
lemma stops_conditions (rest : Derivation .conditions) {r}
    (stop : Stops (Symbol.continuations .conditions) r) :
    Stops (Symbol.continuations (.binary levels)) (rest.yield ++ r) := by
  cases rest with
  | noCondition => exact stop.mono (by decide)
  | condition connective e rest => exact stops_cons connective _ (by decide)

/-- What may follow operations ends the operand before them. -/
lemma stops_operations {op ops} (proper : op :: ops <:+ levels)
    (rest : Derivation (.operations op ops)) {r}
    (stop : Stops (Symbol.continuations (.operations op ops)) r) :
    Stops (Symbol.continuations (.binary ops)) (rest.yield ++ r) := by
  cases rest with
  | noOperation =>
    apply stop.mono
    intro k hk
    cases hk with
    | head => exact List.mem_cons_self
    | tail _ hk => exact List.mem_cons_of_mem _ (List.mem_cons_of_mem _ hk)
  | operation operator e rest =>
    apply stops_cons operator
    intro k hk hm
    cases List.mem_singleton.mp hk
    rcases List.mem_cons.mp hm with h | h
    · exact ne_leftParen proper h
    · exact not_mem_tighter proper h

/-- What may follow arguments ends the argument before them. -/
lemma stops_arguments (rest : Derivation .arguments) {r}
    (stop : Stops (Symbol.continuations .arguments) r) :
    Stops (Symbol.continuations .logic) (rest.yield ++ r) := by
  cases rest with
  | noArgument => exact stop.mono (by decide)
  | argument comma e rest => exact stops_cons comma _ (by decide)

/-- A mode or the bracket ends the bound before it. -/
lemma stops_mode (mode : Derivation .mode) (r : TokenOf [.rightBracket]) (ts : List Token) :
    Stops (Symbol.continuations .logic) (mode.yield ++ r.1 :: ts) := by
  cases mode with
  | noMode => exact stops_cons r _ (by decide)
  | flag colon word => exact stops_cons colon _ (by decide)

/-- The kinds of tokens that begin an expression. -/
def starters : List TokenKind :=
  [.bang, .minus, .number, .stringLiteral, .identifier, .leftParen, .leftBracket]

/-- Expressions, as opposed to what follows the first part of one. -/
def Symbol.IsExpression : Symbol → Prop
  | .logic | .binary _ | .unary | .primary => True
  | _ => False

/-- An expression begins with a token that can begin one. -/
lemma Derivation.yield_eq_cons {s} (d : Derivation s) (expression : s.IsExpression) :
    ∃ t ts, d.yield = t :: ts ∧ t.kind ∈ starters := by
  induction d with
  | logic first rest ih _ =>
    obtain ⟨t, ts, e, start⟩ := ih trivial
    exact ⟨t, ts ++ rest.yield, by rw [yield, e]; rfl, start⟩
  | operand e ih => exact ih trivial
  | level first rest ih _ =>
    obtain ⟨t, ts, e, start⟩ := ih trivial
    exact ⟨t, ts ++ rest.yield, by rw [yield, e]; rfl, start⟩
  | sign operator e _ =>
    have sub : [TokenKind.bang, .minus] ⊆ starters := by decide
    exact ⟨_, _, rfl, sub operator.2⟩
  | unsigned e ih => exact ih trivial
  | literal t =>
    have sub : [TokenKind.number, .stringLiteral] ⊆ starters := by decide
    exact ⟨_, _, rfl, sub t.2⟩
  | name t | emptyCall t | call t =>
    have sub : [TokenKind.identifier] ⊆ starters := by decide
    exact ⟨_, _, rfl, sub t.2⟩
  | group l =>
    have sub : [TokenKind.leftParen] ⊆ starters := by decide
    exact ⟨_, _, rfl, sub l.2⟩
  | range l =>
    have sub : [TokenKind.leftBracket] ⊆ starters := by decide
    exact ⟨_, _, rfl, sub l.2⟩
  | noCondition | condition | noOperation | operation | noArgument | argument | noMode | flag =>
    exact expression.elim

/-- A token is of one kind only. -/
lemma kind_clash {kinds kinds'} (t : TokenOf kinds) (t' : TokenOf kinds') (e : t.1 = t'.1)
    (disjoint : ∀ k ∈ kinds, k ∉ kinds') : False :=
  disjoint _ t.2 (e ▸ t'.2)

/-- What stops a kind does not begin with it. -/
lemma Stops.clash {kinds kinds' ts ts'} (stop : Stops kinds' ts) (t : TokenOf kinds)
    (e : ts = t.1 :: ts') (sub : kinds ⊆ kinds') : False := by
  subst e
  exact stop t.1 rfl (sub t.2)

/-- A sign does not begin a literal, a name, a group or a range. -/
lemma Derivation.not_sign (d : Derivation .primary) (operator : TokenOf [.bang, .minus]) {r ts}
    (h : d.yield ++ r = operator.1 :: ts) : False := by
  cases d with
  | literal t | name t | emptyCall t | call t | group t | range t =>
    exact kind_clash t operator (List.cons.inj h).1 (by decide)

/-- An expression does not begin with a token that can begin none. -/
lemma Derivation.not_starter {kinds} (d : Derivation .logic) (t : TokenOf kinds) {r ts}
    (disjoint : ∀ k ∈ kinds, k ∉ starters) (h : d.yield ++ r = t.1 :: ts) : False := by
  obtain ⟨u, us, e, start⟩ := d.yield_eq_cons trivial
  rw [e] at h
  cases (List.cons.inj h).1
  exact disjoint _ t.2 start

/-- No other phrase of the symbol begins the same tokens, if what follows continues neither. -/
def Derivation.Unambiguous {s} (d : Derivation s) : Prop :=
  ∀ (d' : Derivation s) {r r'}, Stops s.continuations r → Stops s.continuations r' →
    d.yield ++ r = d'.yield ++ r' → d = d' ∧ r = r'

namespace Derivation

/-- A chain of conditions, from its parts. -/
lemma unambiguous_logic {first : Derivation (.binary levels)} {rest : Derivation .conditions}
    (hFirst : first.Unambiguous) (hRest : rest.Unambiguous) :
    (logic first rest).Unambiguous := by
  intro d' r r' stop stop' h
  cases d' with
  | logic first' rest' =>
    simp only [yield, List.append_assoc] at h
    obtain ⟨rfl, h1⟩ := hFirst first' (stops_conditions rest stop) (stops_conditions rest' stop') h
    obtain ⟨rfl, h2⟩ := hRest rest' stop stop' h1
    exact ⟨rfl, h2⟩

/-- The end of a chain of conditions. -/
lemma unambiguous_noCondition : noCondition.Unambiguous := by
  intro d' r r' stop stop' h
  cases d' with
  | noCondition => exact ⟨rfl, h⟩
  | condition connective => exact (stop.clash connective h (by decide)).elim

/-- One more condition, from its parts. -/
lemma unambiguous_condition (connective : TokenOf [.andAnd, .orOr])
    {e : Derivation (.binary levels)} {rest : Derivation .conditions} (hE : e.Unambiguous)
    (hRest : rest.Unambiguous) : (condition connective e rest).Unambiguous := by
  intro d' r r' stop stop' h
  cases d' with
  | noCondition => exact (stop'.clash connective h.symm (by decide)).elim
  | condition connective' e' rest' =>
    simp only [yield, List.cons_append, List.append_assoc, List.cons.injEq] at h
    cases Subtype.ext h.1
    obtain ⟨rfl, h1⟩ := hE e' (stops_conditions rest stop) (stops_conditions rest' stop') h.2
    obtain ⟨rfl, h2⟩ := hRest rest' stop stop' h1
    exact ⟨rfl, h2⟩

/-- An operand without operators, from its part. -/
lemma unambiguous_operand {e : Derivation .unary} (hE : e.Unambiguous) :
    (operand e).Unambiguous := by
  intro d' r r' stop stop' h
  cases d' with
  | operand e' =>
    obtain ⟨rfl, h1⟩ := hE e' stop stop' h
    exact ⟨rfl, h1⟩

/-- One level of operators, from its parts. -/
lemma unambiguous_level {op ops} (proper : op :: ops <:+ levels)
    {first : Derivation (.binary ops)} {rest : Derivation (.operations op ops)}
    (hFirst : first.Unambiguous) (hRest : rest.Unambiguous) :
    (level first rest).Unambiguous := by
  intro d' r r' stop stop' h
  cases d' with
  | level first' rest' =>
    simp only [yield, List.append_assoc] at h
    obtain ⟨rfl, h1⟩ := hFirst first' (stops_operations proper rest stop)
      (stops_operations proper rest' stop') h
    obtain ⟨rfl, h2⟩ := hRest rest' stop stop' h1
    exact ⟨rfl, h2⟩

/-- The end of a chain of operators. -/
lemma unambiguous_noOperation {op ops} :
    (noOperation : Derivation (.operations op ops)).Unambiguous := by
  intro d' r r' stop stop' h
  cases d' with
  | noOperation => exact ⟨rfl, h⟩
  | operation operator => exact (stop.clash operator h (by simp [Symbol.continuations])).elim

/-- One more operator with its operand, from its parts. -/
lemma unambiguous_operation {op ops} (proper : op :: ops <:+ levels) (operator : TokenOf [op])
    {e : Derivation (.binary ops)} {rest : Derivation (.operations op ops)} (hE : e.Unambiguous)
    (hRest : rest.Unambiguous) : (operation operator e rest).Unambiguous := by
  intro d' r r' stop stop' h
  cases d' with
  | noOperation => exact (stop'.clash operator h.symm (by simp [Symbol.continuations])).elim
  | operation operator' e' rest' =>
    simp only [yield, List.cons_append, List.append_assoc, List.cons.injEq] at h
    cases Subtype.ext h.1
    obtain ⟨rfl, h1⟩ := hE e' (stops_operations proper rest stop)
      (stops_operations proper rest' stop') h.2
    obtain ⟨rfl, h2⟩ := hRest rest' stop stop' h1
    exact ⟨rfl, h2⟩

/-- A sign, from its operand. -/
lemma unambiguous_sign (operator : TokenOf [.bang, .minus]) {e : Derivation .unary}
    (hE : e.Unambiguous) : (sign operator e).Unambiguous := by
  intro d' r r' stop stop' h
  cases d' with
  | sign operator' e' =>
    simp only [yield, List.cons_append, List.cons.injEq] at h
    cases Subtype.ext h.1
    obtain ⟨rfl, h1⟩ := hE e' stop stop' h.2
    exact ⟨rfl, h1⟩
  | unsigned e' => exact (e'.not_sign operator h.symm).elim

/-- An operand without a sign, from its part. -/
lemma unambiguous_unsigned {e : Derivation .primary} (hE : e.Unambiguous) :
    (unsigned e).Unambiguous := by
  intro d' r r' stop stop' h
  cases d' with
  | sign operator' e' => exact (e.not_sign operator' h).elim
  | unsigned e' =>
    obtain ⟨rfl, h1⟩ := hE e' stop stop' h
    exact ⟨rfl, h1⟩

/-- A number or a text. -/
lemma unambiguous_literal (t : TokenOf [.number, .stringLiteral]) : (literal t).Unambiguous := by
  intro d' r r' _ _ h
  cases d' with
  | literal t' =>
    simp only [yield, List.cons_append, List.nil_append, List.cons.injEq] at h
    cases Subtype.ext h.1
    exact ⟨rfl, h.2⟩
  | name t' | emptyCall t' | call t' | group t' | range t' =>
    exact (kind_clash t t' (List.cons.inj h).1 (by decide)).elim

-- A name, a call without arguments and a call with some begin alike: the parenthesis after the
-- name tells the first, and what begins an expression tells the last.
/-- A variable, which is no call since no parenthesis follows. -/
lemma unambiguous_name (t : TokenOf [.identifier]) : (name t).Unambiguous := by
  intro d' r r' stop _ h
  cases d' with
  | name t' =>
    simp only [yield, List.cons_append, List.nil_append, List.cons.injEq] at h
    cases Subtype.ext h.1
    exact ⟨rfl, h.2⟩
  | emptyCall t' l | call t' l => exact (stop.clash l (List.cons.inj h).2 (by decide)).elim
  | literal t' | group t' | range t' =>
    exact (kind_clash t t' (List.cons.inj h).1 (by decide)).elim

/-- A call without arguments. -/
lemma unambiguous_emptyCall (t : TokenOf [.identifier]) (l : TokenOf [.leftParen])
    (q : TokenOf [.rightParen]) : (emptyCall t l q).Unambiguous := by
  intro d' r r' _ stop' h
  cases d' with
  | name t' => exact (stop'.clash l (List.cons.inj h).2.symm (by decide)).elim
  | emptyCall t' l' q' =>
    simp only [yield, List.cons_append, List.nil_append, List.cons.injEq] at h
    cases Subtype.ext h.1
    cases Subtype.ext h.2.1
    cases Subtype.ext h.2.2.1
    exact ⟨rfl, h.2.2.2⟩
  | call t' l' first' =>
    simp only [yield, List.cons_append, List.nil_append, List.append_assoc, List.cons.injEq] at h
    exact (first'.not_starter q (by decide) h.2.2.symm).elim
  | literal t' | group t' | range t' =>
    exact (kind_clash t t' (List.cons.inj h).1 (by decide)).elim

/-- A call with arguments, from its parts. -/
lemma unambiguous_call (t : TokenOf [.identifier]) (l : TokenOf [.leftParen])
    {first : Derivation .logic} {rest : Derivation .arguments} (q : TokenOf [.rightParen])
    (hFirst : first.Unambiguous) (hRest : rest.Unambiguous) :
    (call t l first rest q).Unambiguous := by
  intro d' r r' _ stop' h
  cases d' with
  | name t' => exact (stop'.clash l (List.cons.inj h).2.symm (by decide)).elim
  | emptyCall t' l' q' =>
    simp only [yield, List.cons_append, List.nil_append, List.append_assoc, List.cons.injEq] at h
    exact (first.not_starter q' (by decide) h.2.2).elim
  | call t' l' first' rest' q' =>
    simp only [yield, List.cons_append, List.nil_append, List.append_assoc, List.cons.injEq] at h
    cases Subtype.ext h.1
    cases Subtype.ext h.2.1
    obtain ⟨rfl, h1⟩ := hFirst first' (stops_arguments rest (stops_cons q _ (by decide)))
      (stops_arguments rest' (stops_cons q' _ (by decide))) h.2.2
    obtain ⟨rfl, h2⟩ := hRest rest' (stops_cons q _ (by decide)) (stops_cons q' _ (by decide)) h1
    cases Subtype.ext (List.cons.inj h2).1
    exact ⟨rfl, (List.cons.inj h2).2⟩
  | literal t' | group t' | range t' =>
    exact (kind_clash t t' (List.cons.inj h).1 (by decide)).elim

/-- A group, from its part. -/
lemma unambiguous_group (l : TokenOf [.leftParen]) {inner : Derivation .logic}
    (q : TokenOf [.rightParen]) (hInner : inner.Unambiguous) :
    (group l inner q).Unambiguous := by
  intro d' r r' _ _ h
  cases d' with
  | group l' inner' q' =>
    simp only [yield, List.cons_append, List.nil_append, List.append_assoc, List.cons.injEq] at h
    cases Subtype.ext h.1
    obtain ⟨rfl, h1⟩ := hInner inner' (stops_cons q _ (by decide)) (stops_cons q' _ (by decide)) h.2
    cases Subtype.ext (List.cons.inj h1).1
    exact ⟨rfl, (List.cons.inj h1).2⟩
  | literal t' | name t' | emptyCall t' | call t' | range t' =>
    exact (kind_clash l t' (List.cons.inj h).1 (by decide)).elim

/-- A range, from its parts. -/
lemma unambiguous_range (l : TokenOf [.leftBracket]) {low : Derivation .logic}
    (colon : TokenOf [.colon]) {high : Derivation .logic} {mode : Derivation .mode}
    (q : TokenOf [.rightBracket]) (hLow : low.Unambiguous) (hHigh : high.Unambiguous)
    (hMode : mode.Unambiguous) : (range l low colon high mode q).Unambiguous := by
  intro d' r r' _ _ h
  cases d' with
  | range l' low' colon' high' mode' q' =>
    simp only [yield, List.cons_append, List.nil_append, List.append_assoc, List.cons.injEq] at h
    cases Subtype.ext h.1
    obtain ⟨rfl, h1⟩ := hLow low' (stops_cons colon _ (by decide))
      (stops_cons colon' _ (by decide)) h.2
    cases Subtype.ext (List.cons.inj h1).1
    obtain ⟨rfl, h2⟩ := hHigh high' (stops_mode mode q _) (stops_mode mode' q' _)
      (List.cons.inj h1).2
    obtain ⟨rfl, h3⟩ := hMode mode' (stops_cons q _ (by decide)) (stops_cons q' _ (by decide)) h2
    cases Subtype.ext (List.cons.inj h3).1
    exact ⟨rfl, (List.cons.inj h3).2⟩
  | literal t' | name t' | emptyCall t' | call t' | group t' =>
    exact (kind_clash l t' (List.cons.inj h).1 (by decide)).elim

/-- The end of the arguments. -/
lemma unambiguous_noArgument : noArgument.Unambiguous := by
  intro d' r r' stop _ h
  cases d' with
  | noArgument => exact ⟨rfl, h⟩
  | argument comma => exact (stop.clash comma h (by decide)).elim

/-- One more argument, from its parts. -/
lemma unambiguous_argument (comma : TokenOf [.comma]) {e : Derivation .logic}
    {rest : Derivation .arguments} (hE : e.Unambiguous) (hRest : rest.Unambiguous) :
    (argument comma e rest).Unambiguous := by
  intro d' r r' stop stop' h
  cases d' with
  | noArgument => exact (stop'.clash comma h.symm (by decide)).elim
  | argument comma' e' rest' =>
    simp only [yield, List.cons_append, List.append_assoc, List.cons.injEq] at h
    cases Subtype.ext h.1
    obtain ⟨rfl, h1⟩ := hE e' (stops_arguments rest stop) (stops_arguments rest' stop') h.2
    obtain ⟨rfl, h2⟩ := hRest rest' stop stop' h1
    exact ⟨rfl, h2⟩

/-- A range without a mode. -/
lemma unambiguous_noMode : noMode.Unambiguous := by
  intro d' r r' stop _ h
  cases d' with
  | noMode => exact ⟨rfl, h⟩
  | flag colon => exact (stop.clash colon h (by decide)).elim

/-- A range with a mode. -/
lemma unambiguous_flag (colon : TokenOf [.colon]) (word : TokenOf [.identifier]) :
    (flag colon word).Unambiguous := by
  intro d' r r' _ stop' h
  cases d' with
  | noMode => exact (stop'.clash colon h.symm (by decide)).elim
  | flag colon' word' =>
    simp only [yield, List.cons_append, List.nil_append, List.cons.injEq] at h
    cases Subtype.ext h.1
    cases Subtype.ext h.2.1
    exact ⟨rfl, h.2.2⟩

/-- Two phrases of one symbol at the beginning of the same tokens are the same phrase, if neither
is continued by what follows it. -/
lemma unambiguous {s} (d : Derivation s) (proper : s.Proper) : d.Unambiguous := by
  induction d with
  | logic first rest ihFirst ihRest =>
    exact unambiguous_logic (ihFirst List.suffix_rfl) (ihRest trivial)
  | noCondition => exact unambiguous_noCondition
  | condition connective e rest ihE ihRest =>
    exact unambiguous_condition connective (ihE List.suffix_rfl) (ihRest trivial)
  | operand e ih => exact unambiguous_operand (ih trivial)
  | @level op ops first rest ihFirst ihRest =>
    have tighter : ops <:+ levels := (List.suffix_cons op ops).trans proper
    exact unambiguous_level proper (ihFirst tighter) (ihRest proper)
  | noOperation => exact unambiguous_noOperation
  | @operation op ops operator e rest ihE ihRest =>
    have tighter : ops <:+ levels := (List.suffix_cons op ops).trans proper
    exact unambiguous_operation proper operator (ihE tighter) (ihRest proper)
  | sign operator e ih => exact unambiguous_sign operator (ih trivial)
  | unsigned e ih => exact unambiguous_unsigned (ih trivial)
  | literal t => exact unambiguous_literal t
  | name t => exact unambiguous_name t
  | emptyCall t l q => exact unambiguous_emptyCall t l q
  | call t l first rest q ihFirst ihRest =>
    exact unambiguous_call t l q (ihFirst trivial) (ihRest trivial)
  | group l inner q ih => exact unambiguous_group l q (ih trivial)
  | range l low colon high mode q ihLow ihHigh ihMode =>
    exact unambiguous_range l colon q (ihLow trivial) (ihHigh trivial) (ihMode trivial)
  | noArgument => exact unambiguous_noArgument
  | argument comma e rest ihE ihRest =>
    exact unambiguous_argument comma (ihE trivial) (ihRest trivial)
  | noMode => exact unambiguous_noMode
  | flag colon word => exact unambiguous_flag colon word

/-- The grammar is unambiguous: the derivation of some tokens is unique. -/
theorem unique (d d' : Derivation .logic) (h : d.yield = d'.yield) : d = d' := by
  have stop : Stops (Symbol.continuations .logic) [] := by
    intro t ht
    cases ht
  exact (d.unambiguous trivial d' stop stop (by rw [h])).1

end Derivation

end Linework.Grammar
