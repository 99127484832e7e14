import Linework.Expr
import Linework.SyntaxError

/-!
# Reading expression trees

The grammar, loosest first:

* `logic    → level₀ (("&&" | "||") level₀)*`
* `levelₙ   → levelₙ₊₁ (operatorₙ levelₙ₊₁)*`, eleven levels with one operator each, all of them
  associating to the left, the last one over `unary`
* `unary    → ("-" | "!") unary | primary`
* `primary  → number | string | name | name "(" arguments? ")" | "(" logic ")"`
  `| "[" logic ":" logic (":" name)? "]"`

A reader works on a cursor, the tokens ahead together with the depth of nesting, and is built from
the reader of its parts. Groups, calls, ranges and unary operators nest their content one level,
and so does every operator of a level for what stands to its right. Every repetition is bounded by
a list of tokens that is at least as long as what is ahead.
-/

namespace Linework.Expr

/-- The tokens still to be read, and how deeply the place is nested. -/
structure Cursor where
  rest : List Token
  depth : Nat

/-- Reads something at a cursor and moves the cursor past it. -/
abbrev Reader (α : Type) := Cursor → Except SyntaxError (α × Cursor)

/-- The nesting that one expression may have. -/
def nestingLimit : Nat := 64

namespace Cursor

/-- The next token. A text that is used up goes on with its end. -/
def peek (c : Cursor) : Token := c.rest.headD ⟨.endOfText, "", none, 1⟩

/-- An error at the next token. -/
def fail {α : Type} (c : Cursor) (cause : SyntaxError.Cause) : Except SyntaxError α :=
  .error ⟨c.peek.column, cause⟩

/-- The next token and the cursor past it, if the token is of one of the given kinds. The end of
the text is never passed. -/
def accept? (c : Cursor) (kinds : List TokenKind) : Option (Token × Cursor) :=
  match c.rest with
  | [] => none
  | t :: ts =>
    if t.kind ≠ .endOfText ∧ t.kind ∈ kinds then some (t, { c with rest := ts }) else none

/-- Exactly one token is passed, and the nesting stays. -/
theorem accept?_eq_some {c d : Cursor} {kinds : List TokenKind} {t : Token} :
    c.accept? kinds = some (t, d) ↔
      c.rest = t :: d.rest ∧ d.depth = c.depth ∧ t.kind ≠ .endOfText ∧ t.kind ∈ kinds := by
  obtain ⟨rest, depth⟩ := c
  obtain ⟨rest', depth'⟩ := d
  cases rest with
  | nil => simp [accept?]
  | cons u us =>
    simp only [accept?]
    split <;> grind

/-- Passes a token of the given kind, which has to be the next one. -/
def expect (c : Cursor) (kind : TokenKind) (cause : SyntaxError.Cause) :
    Except SyntaxError (Token × Cursor) :=
  match c.accept? [kind] with
  | some r => .ok r
  | none => c.fail cause

/-- Goes one level deeper, if that is allowed. -/
def deepen (c : Cursor) : Except SyntaxError Cursor :=
  if c.depth < nestingLimit then .ok { c with depth := c.depth + 1 } else c.fail .tooDeep

/-- Goes one level back. -/
def surface (c : Cursor) : Cursor := { c with depth := c.depth - 1 }

end Cursor

/-- The operators between two operands, from the loosest to the tightest. -/
def levels : List TokenKind :=
  [.less, .greater, .lessEqual, .greaterEqual, .bangEqual, .equalEqual, .minus, .plus, .slash,
   .star, .caret]

/-- Further operators of one level, at most as many as the bound has tokens, each with its right
operand. -/
def chain (op : TokenKind) (operand : Reader Expr) : (bound : List Token) → Expr → Reader Expr
  | [], left, c => .ok (left, c)
  | _ :: bound, left, c =>
    match c.accept? [op] with
    | none => .ok (left, c)
    | some (t, c) => do
      let c ← c.deepen
      let (right, c) ← operand c
      chain op operand bound (.binary left t right) c

/-- One level: an operand and a chain of operators. The nesting of the chain ends with it. -/
def level (op : TokenKind) (operand : Reader Expr) : Reader Expr := fun c => do
  let (left, next) ← operand c
  let (e, next) ← chain op operand next.rest left next
  return (e, { next with depth := c.depth })

/-- All the levels from the first of a list on, over the reader of their operands. -/
def ladder (ops : List TokenKind) (operand : Reader Expr) : Reader Expr :=
  ops.foldr level operand

/-- Further conditions of a chain, at most as many as the bound has tokens, each after its
connective. -/
def connectives (operand : Reader Expr) : (bound : List Token) → Reader (List (Token × Expr))
  | [], c => .ok ([], c)
  | _ :: bound, c =>
    match c.accept? [.andAnd, .orOr] with
    | none => .ok ([], c)
    | some (t, c) => do
      let (e, c) ← operand c
      let (rest, c) ← connectives operand bound c
      return ((t, e) :: rest, c)

/-- A chain of conditions; a single one is no chain. -/
def logicChain (operand : Reader Expr) : Reader Expr := fun c => do
  let (first, c) ← operand c
  let (rest, c) ← connectives operand c.rest c
  return (if rest.isEmpty then first else .logic first rest, c)

/-- Operators, at most as many as the bound has tokens, each before the rest, and what they stand
before. -/
def signs (operand : Reader Expr) : (bound : List Token) → Reader Expr
  | [], c => operand c
  | _ :: bound, c =>
    match c.accept? [.bang, .minus] with
    | none => operand c
    | some (t, c) => do
      let c ← c.deepen
      let (right, c) ← signs operand bound c
      return (.unary t right, c.surface)

/-- An operand with the operators before it. -/
def unaryChain (operand : Reader Expr) : Reader Expr := fun c => signs operand c.rest c

/-- Arguments between commas, at most as many after the first one as the bound has tokens. -/
def arguments (inner : Reader Expr) : (bound : List Token) → Reader (List Expr)
  | [], c => do
    let (e, c) ← inner c
    return ([e], c)
  | _ :: bound, c => do
    let (e, c) ← inner c
    match c.accept? [.comma] with
    | none => return ([e], c)
    | some (_, c) =>
      let (es, c) ← arguments inner bound c
      return (e :: es, c)

/-- A call whose name and opening parenthesis have been passed. -/
def callTail (inner : Reader Expr) (callee : Token) : Reader Expr := fun c => do
  let c ← c.deepen
  let (es, c) ←
    if (c.accept? [.rightParen]).isSome then pure ([], c) else arguments inner c.rest c
  let (_, c) ← c.expect .rightParen .unclosedArguments
  return (.call callee es, c.surface)

/-- A group whose opening parenthesis has been passed. -/
def groupTail (inner : Reader Expr) : Reader Expr := fun c => do
  let c ← c.deepen
  let (e, c) ← inner c
  let (_, c) ← c.expect .rightParen .unclosedGroup
  return (.group e, c.surface)

/-- The mode of a range, after its bounds. -/
def rangeMode : Reader RangeMode := fun c =>
  match c.accept? [.colon] with
  | none => .ok (.auto, c)
  | some (_, c) => do
    let (flag, c) ← c.expect .identifier .missingMode
    if flag.lexeme = "i" then return (.integer, c)
    else if flag.lexeme = "d" then return (.real, c)
    else .error ⟨flag.column, .unknownMode flag.lexeme⟩

/-- A range whose opening bracket has been passed. -/
def rangeTail (inner : Reader Expr) : Reader Expr := fun c => do
  let c ← c.deepen
  let (low, c) ← inner c
  let (_, c) ← c.expect .colon .missingColon
  let (high, c) ← inner c
  let (mode, c) ← rangeMode c
  let (_, c) ← c.expect .rightBracket .unclosedRange
  return (.range low high mode, c.surface)

/-- The error at a token that begins no expression. -/
def noExpression (c : Cursor) : Except SyntaxError (Expr × Cursor) :=
  if c.peek.kind = .endOfText then c.fail .expectExpression
  else c.fail (.unexpected c.peek.lexeme)

/-- A literal, a variable, a call, a group or a range. -/
def primary (inner : Reader Expr) : Reader Expr := fun c =>
  match c.accept? [.number, .stringLiteral] with
  | some (t, c) => .ok (.literal (t.literal.getD .undefined), c)
  | none =>
    match c.accept? [.identifier] with
    | some (name, c) =>
      match c.accept? [.leftParen] with
      | some (_, c) => callTail inner name c
      | none => .ok (.ref name, c)
    | none =>
      match c.accept? [.leftParen] with
      | some (_, c) => groupTail inner c
      | none =>
        match c.accept? [.leftBracket] with
        | some (_, c) => rangeTail inner c
        | none => noExpression c

/-- An expression with less than `n` enclosing brackets that are still to come. -/
def expression : (n : Nat) → Reader Expr
  | 0 => noExpression
  | n + 1 => logicChain (ladder levels (unaryChain (primary (expression n))))

/-- The tree of a list of tokens, which has to be used up to its end. -/
def parse (tokens : List Token) : Except SyntaxError Expr := do
  let (e, c) ← expression tokens.length ⟨tokens, 0⟩
  if c.peek.kind = .endOfText then return e
  else c.fail (.trailing c.peek.lexeme)

end Linework.Expr
