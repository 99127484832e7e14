import Linework.Proofs.Occurrence

/-!
# Statements with other names and on other lines

What a script is made of, with other names for its variables, and with other numbers for its lines.
Called functions keep their names. With the names and the numbers that were there nothing changes.
-/

namespace Linework

section

variable (σ : String → String)

namespace Expr

mutual

/-- An expression with other variables. Called functions keep their names. -/
def rename : Expr → Expr
  | .literal v => .literal v
  | .ref name => .ref { name with lexeme := σ name.lexeme }
  | .group inner => .group inner.rename
  | .unary op right => .unary op right.rename
  | .binary left op right => .binary left.rename op right.rename
  | .call callee arguments => .call callee (renameAll arguments)
  | .range low high mode => .range low.rename high.rename mode
  | .logic first rest => .logic first.rename (renameLogic rest)
termination_by structural e => e

/-- Expressions with other variables. -/
def renameAll : List Expr → List Expr
  | [] => []
  | e :: es => e.rename :: renameAll es
termination_by structural es => es

/-- The rest of a chain of conditions with other variables. -/
def renameLogic : List (Token × Expr) → List (Token × Expr)
  | [] => []
  | (connective, e) :: rest => (connective, e.rename) :: renameLogic rest
termination_by structural es => es

end

end Expr

/-- A formula with other variables. Its text is only shown if it has no tree, and stays. -/
def Formula.rename (f : Formula) : Formula := { f with compiled := f.compiled.map (Expr.rename σ) }

end

mutual

/-- An expression with its own variables is the expression. -/
lemma Expr.rename_id : (e : Expr) → e.rename id = e
  | .literal _ | .ref _ => rfl
  | .group inner => by rw [Expr.rename, inner.rename_id]
  | .unary _ right => by rw [Expr.rename, right.rename_id]
  | .binary left _ right => by rw [Expr.rename, left.rename_id, right.rename_id]
  | .call _ arguments => by rw [Expr.rename, Expr.renameAll_id arguments]
  | .range low high _ => by rw [Expr.rename, low.rename_id, high.rename_id]
  | .logic first rest => by rw [Expr.rename, first.rename_id, Expr.renameLogic_id rest]

/-- Expressions with their own variables. -/
lemma Expr.renameAll_id : (es : List Expr) → Expr.renameAll id es = es
  | [] => rfl
  | e :: es => by rw [Expr.renameAll, e.rename_id, Expr.renameAll_id es]

/-- The rest of a chain of conditions with its own variables. -/
lemma Expr.renameLogic_id : (es : List (Token × Expr)) → Expr.renameLogic id es = es
  | [] => rfl
  | (_, e) :: rest => by rw [Expr.renameLogic, e.rename_id, Expr.renameLogic_id rest]

end

/-- A formula with its own variables is the formula. -/
lemma Formula.rename_id (f : Formula) : f.rename id = f := by
  obtain ⟨source, compiled⟩ := f
  cases compiled with
  | error e => rfl
  | ok e => exact congrArg (fun e => Formula.mk source (.ok e)) e.rename_id

section

variable (σ : String → String)

/-- A statement of one line with other variables, also where it declares them or assigns to
them. -/
def Instruction.rename : Instruction → Instruction
  | .compute formula => .compute (formula.rename σ)
  | .declare name value => .declare (σ name) (value.map (Formula.rename σ))
  | .assign name op value => .assign (σ name) op (value.rename σ)
  | .yield value => .yield (value.map (Formula.rename σ))
  | .exit word => .exit word

mutual

/-- A statement with other variables, also where it declares them or assigns to them. -/
def Statement.rename : Statement → Statement
  | .plain line instruction => .plain line (instruction.rename σ)
  | .branch line condition yes no =>
    .branch line (condition.rename σ) (renameBlock yes) (renameElse no)
  | .loop line condition body => .loop line (condition.rename σ) (renameBlock body)
termination_by structural s => s

/-- A block with other variables. -/
def renameBlock : List Statement → List Statement
  | [] => []
  | s :: rest => s.rename :: renameBlock rest
termination_by structural b => b

/-- The other block of a branch with other variables. -/
def renameElse : Option (List Statement) → Option (List Statement)
  | none => none
  | some block => some (renameBlock block)
termination_by structural b => b

end

/-- A function with other variables and parameters. -/
def Definition.rename (d : Definition) : Definition :=
  ⟨d.name, d.params.map σ, renameBlock σ d.body⟩

end

/-- A statement of one line with its own variables is the statement. -/
lemma Instruction.rename_id (i : Instruction) : i.rename id = i := by
  have optional (value : Option Formula) : value.map (Formula.rename id) = value := by
    rw [show Formula.rename id = id from funext Formula.rename_id, Option.map_id, id_eq]
  cases i with
  | compute formula => rw [rename, formula.rename_id]
  | declare name value => rw [rename, optional, id_eq]
  | yield value => rw [rename, optional]
  | assign name op value => rw [rename, value.rename_id, id_eq]
  | exit word => rfl

mutual

/-- A statement with its own variables is the statement. -/
lemma Statement.rename_id : (s : Statement) → s.rename id = s
  | .plain _ instruction => by rw [Statement.rename, instruction.rename_id]
  | .branch _ condition yes no => by
    rw [Statement.rename, condition.rename_id, renameBlock_id yes, renameElse_id no]
  | .loop _ condition body => by
    rw [Statement.rename, condition.rename_id, renameBlock_id body]

/-- A block with its own variables is the block. -/
lemma renameBlock_id : (b : List Statement) → renameBlock id b = b
  | [] => rfl
  | s :: rest => by rw [renameBlock, s.rename_id, renameBlock_id rest]

/-- The other block of a branch with its own variables. -/
lemma renameElse_id : (b : Option (List Statement)) → renameElse id b = b
  | none => rfl
  | some b => by rw [renameElse, renameBlock_id b]

end

/-- A function with its own variables is the function. -/
lemma Definition.rename_id (d : Definition) : d.rename id = d := by
  rw [rename, renameBlock_id, List.map_id]

section

variable (φ : Nat → Nat)

mutual

/-- A statement on other lines. -/
def Statement.relabel : Statement → Statement
  | .plain line instruction => .plain (φ line) instruction
  | .branch line condition yes no =>
    .branch (φ line) condition (relabelBlock yes) (relabelElse no)
  | .loop line condition body => .loop (φ line) condition (relabelBlock body)
termination_by structural s => s

/-- A block on other lines. -/
def relabelBlock : List Statement → List Statement
  | [] => []
  | s :: rest => s.relabel :: relabelBlock rest
termination_by structural b => b

/-- The other block of a branch on other lines. -/
def relabelElse : Option (List Statement) → Option (List Statement)
  | none => none
  | some block => some (relabelBlock block)
termination_by structural b => b

end

/-- A function on other lines. -/
def Definition.relabel (d : Definition) : Definition := { d with body := relabelBlock φ d.body }

end

mutual

/-- A statement on its own lines is the statement. -/
lemma Statement.relabel_id : (s : Statement) → s.relabel id = s
  | .plain _ _ => rfl
  | .branch _ _ yes no => by rw [Statement.relabel, relabelBlock_id yes, relabelElse_id no, id_eq]
  | .loop _ _ body => by rw [Statement.relabel, relabelBlock_id body, id_eq]

/-- A block on its own lines is the block. -/
lemma relabelBlock_id : (b : List Statement) → relabelBlock id b = b
  | [] => rfl
  | s :: rest => by rw [relabelBlock, s.relabel_id, relabelBlock_id rest]

/-- The other block of a branch on its own lines. -/
lemma relabelElse_id : (b : Option (List Statement)) → relabelElse id b = b
  | none => rfl
  | some b => by rw [relabelElse, relabelBlock_id b]

end

/-- A function on its own lines is the function. -/
lemma Definition.relabel_id (d : Definition) : d.relabel id = d := by
  rw [relabel, relabelBlock_id]

/-- The line of a statement with other variables and on other lines. -/
lemma Statement.line_rewrite (σ : String → String) (φ : Nat → Nat) (s : Statement) :
    ((s.rename σ).relabel φ).line = φ s.line := by
  cases s <;> rfl

end Linework
