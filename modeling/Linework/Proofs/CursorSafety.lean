import Linework.Proofs.Progress

/-!
# The cursor is safe

`Expr.parse` cuts tokens off a list and counts its nesting with natural numbers, so that nothing can
go wrong. Here the same expressions are read by position: a place counts the tokens passed, each
token is fetched by its number, and a token that has been passed is looked up again. Every step that
could go wrong is checked and would be a `Fault`: to fetch a token that is not there, to pass the
first end of the text, to look back before the first token, to leave a level at the outermost one,
and to repeat something for longer than its bound.

`Follows` relates the two, and it is kept when readers are put together. The nesting that a closing
bracket leaves is there because what was read inside has left it alone (`Moves`). So no fault is
ever met: with all checks in place, the answer is that of `Expr.parse`.
-/

namespace Linework.Expr

/-! ### Reading by position -/

/-- What reading must never do. -/
inductive Fault where
  /-- Fetch a token that is not there. -/
  | noToken
  /-- Pass the first end of the text. -/
  | pastEnd
  /-- Look back when nothing has been passed. -/
  | nothingPassed
  /-- Leave a level when none is open. -/
  | notNested
  /-- Go on when the bound is used up. -/
  | unbounded
  deriving DecidableEq, Repr

/-- Why reading stops. -/
inductive Stop where
  | refused (e : SyntaxError)
  | faulty (f : Fault)
  deriving DecidableEq, Repr

/-- A place in a list of tokens: how many have been passed, and how deeply it is nested. -/
structure Place where
  passed : Nat
  depth : Nat

/-- Reads something at a place, with every step checked. -/
abbrev Walk (α : Type) := StateT Place (Except Stop) α

/-- How many tokens stand before the first end of the text. -/
def firstEnd (tokens : List Token) : Nat := tokens.findIdx (·.kind = .endOfText)

namespace Walk

/-- Stops with a fault. -/
def fault {α : Type} (f : Fault) : Walk α := throw (.faulty f)

variable (tokens : List Token)

/-- The token with a given number. -/
def fetch (i : Nat) : Walk Token :=
  match tokens[i]? with
  | some t => pure t
  | none => fault .noToken

/-- The next token. Behind the last one, that is looked at again. -/
def peek : Walk Token := do
  let place ← get
  fetch tokens (min place.passed (tokens.length - 1))

/-- An error at the next token. -/
def fail {α : Type} (cause : SyntaxError.Cause) : Walk α := do
  let t ← peek tokens
  throw (.refused ⟨t.column, cause⟩)

/-- The token passed last. -/
def previous : Walk Token := do
  let place ← get
  if place.passed = 0 then fault .nothingPassed else fetch tokens (place.passed - 1)

/-- Passes a token, which must stand before the first end of the text. -/
def pass : Walk Unit := do
  let place ← get
  if place.passed < firstEnd tokens then set { place with passed := place.passed + 1 }
  else fault .pastEnd

/-- Passes the next token unless it ends the text, and looks back at it. -/
def advance : Walk Token := do
  let t ← peek tokens
  if t.kind = .endOfText then previous tokens
  else do
    pass tokens
    previous tokens

/-- Whether the next token is of one of the given kinds and does not end the text. -/
def check (kinds : List TokenKind) : Walk Bool := do
  let t ← peek tokens
  return t.kind ≠ .endOfText ∧ t.kind ∈ kinds

/-- Passes the next token if it is of one of the given kinds, and looks back at it. -/
def accept? (kinds : List TokenKind) : Walk (Option Token) := do
  if ← check tokens kinds then
    let _ ← advance tokens
    let t ← previous tokens
    return some t
  else return none

/-- Passes a token of the given kind, which has to be the next one. -/
def expect (kind : TokenKind) (cause : SyntaxError.Cause) : Walk Token := do
  if ← check tokens [kind] then advance tokens else fail tokens cause

/-- Goes one level deeper, and sees then whether that is allowed. -/
def deepen : Walk Unit := do
  modify fun place => { place with depth := place.depth + 1 }
  let place ← get
  if nestingLimit < place.depth then fail tokens .tooDeep else return ()

/-- Goes one level back. -/
def surface : Walk Unit := do
  let place ← get
  if place.depth = 0 then fault .notNested else set { place with depth := place.depth - 1 }

/-- Goes back to the nesting there was before. -/
def restoring {α : Type} (walk : Walk α) : Walk α := do
  let before ← get
  let x ← walk
  modify fun place => { place with depth := before.depth }
  return x

/-- Further operators of one level, each with its right operand. -/
def chain (op : TokenKind) (operand : Walk Expr) : (bound : Nat) → Expr → Walk Expr
  | 0, _ => fault .unbounded
  | bound + 1, left => do
    match ← accept? tokens [op] with
    | none => return left
    | some t => do
      deepen tokens
      let right ← operand
      chain op operand bound (.binary left t right)

/-- One level: an operand and a chain of operators. -/
def level (op : TokenKind) (operand : Walk Expr) : Walk Expr := restoring do
  let left ← operand
  chain tokens op operand tokens.length left

/-- All the levels from the first of a list on. -/
def ladder (ops : List TokenKind) (operand : Walk Expr) : Walk Expr :=
  ops.foldr (level tokens) operand

/-- Further conditions of a chain, each after its connective. -/
def connectives (operand : Walk Expr) : (bound : Nat) → Walk (List (Token × Expr))
  | 0 => fault .unbounded
  | bound + 1 => do
    match ← accept? tokens [.andAnd, .orOr] with
    | none => return []
    | some t => do
      let e ← operand
      let rest ← connectives operand bound
      return (t, e) :: rest

/-- A chain of conditions. -/
def logicChain (operand : Walk Expr) : Walk Expr := do
  let first ← operand
  let rest ← connectives tokens operand tokens.length
  return if rest.isEmpty then first else .logic first rest

/-- Operators, each before the rest, and what they stand before. -/
def signs (operand : Walk Expr) : (bound : Nat) → Walk Expr
  | 0 => fault .unbounded
  | bound + 1 => do
    match ← accept? tokens [.bang, .minus] with
    | none => operand
    | some t => do
      deepen tokens
      let right ← signs operand bound
      surface
      return .unary t right

/-- An operand with the operators before it. -/
def unaryChain (operand : Walk Expr) : Walk Expr := signs tokens operand tokens.length

/-- Arguments between commas. -/
def arguments (inner : Walk Expr) : (bound : Nat) → Walk (List Expr)
  | 0 => fault .unbounded
  | bound + 1 => do
    let e ← inner
    match ← accept? tokens [.comma] with
    | none => return [e]
    | some _ => do
      let es ← arguments inner bound
      return e :: es

/-- The arguments of a call, if there are any. -/
def argumentList (inner : Walk Expr) : Walk (List Expr) := do
  if ← check tokens [.rightParen] then return [] else arguments tokens inner tokens.length

/-- A call whose name and opening parenthesis have been passed. -/
def callTail (inner : Walk Expr) (callee : Token) : Walk Expr := do
  deepen tokens
  let es ← argumentList tokens inner
  let _ ← expect tokens .rightParen .unclosedArguments
  surface
  return .call callee es

/-- A group whose opening parenthesis has been passed. -/
def groupTail (inner : Walk Expr) : Walk Expr := do
  deepen tokens
  let e ← inner
  let _ ← expect tokens .rightParen .unclosedGroup
  surface
  return .group e

/-- The mode that a word names. -/
def readFlag : Walk RangeMode := do
  let flag ← expect tokens .identifier .missingMode
  if flag.lexeme = "i" then return .integer
  else if flag.lexeme = "d" then return .real
  else throw (.refused ⟨flag.column, .unknownMode flag.lexeme⟩)

/-- The mode of a range, after its bounds. -/
def rangeMode : Walk RangeMode := do
  match ← accept? tokens [.colon] with
  | none => return .auto
  | some _ => readFlag tokens

/-- A range whose opening bracket has been passed. -/
def rangeTail (inner : Walk Expr) : Walk Expr := do
  deepen tokens
  let low ← inner
  let _ ← expect tokens .colon .missingColon
  let high ← inner
  let mode ← rangeMode tokens
  let _ ← expect tokens .rightBracket .unclosedRange
  surface
  return .range low high mode

/-- The error at a token that begins no expression. -/
def noExpression : Walk Expr := do
  let t ← peek tokens
  if t.kind = .endOfText then fail tokens .expectExpression
  else fail tokens (.unexpected t.lexeme)

/-- A name, or a call if a parenthesis follows. -/
def named (inner : Walk Expr) (name : Token) : Walk Expr := do
  match ← accept? tokens [.leftParen] with
  | some _ => callTail tokens inner name
  | none => return .ref name

/-- A literal, a variable, a call, a group or a range. -/
def primary (inner : Walk Expr) : Walk Expr := do
  match ← accept? tokens [.number, .stringLiteral] with
  | some t => return .literal (t.literal.getD .undefined)
  | none => do
    match ← accept? tokens [.identifier] with
    | some name => named tokens inner name
    | none => do
      match ← accept? tokens [.leftParen] with
      | some _ => groupTail tokens inner
      | none => do
        match ← accept? tokens [.leftBracket] with
        | some _ => rangeTail tokens inner
        | none => noExpression tokens

/-- An expression with less than `n` enclosing brackets that are still to come. -/
def expression : (n : Nat) → Walk Expr
  | 0 => fault .unbounded
  | n + 1 =>
    logicChain tokens (ladder tokens levels (unaryChain tokens (primary tokens (expression n))))

/-- The tree of a list of tokens, which has to be used up to its end. -/
def wholeText : Walk Expr := do
  let e ← expression tokens tokens.length
  let t ← peek tokens
  if t.kind = .endOfText then return e
  else fail tokens (.trailing t.lexeme)

end Walk

/-- The tree of a list of tokens, read by position from the first one on. -/
def parseByPlace (tokens : List Token) : Except Stop Expr :=
  (Walk.wholeText tokens).run' ⟨0, 0⟩

/-! ### The places of cursors -/

namespace Place

variable (tokens : List Token) (p : Place)

/-- The cursor at a place. -/
def cursor : Cursor := ⟨tokens.drop p.passed, p.depth⟩

/-- No end of the text has been passed. -/
def Within : Prop := p.passed ≤ firstEnd tokens

/-- How many tokens there are still to be read. -/
def ahead : Nat := tokens.length - p.passed

/-- The place behind the next token. -/
def next : Place := { p with passed := p.passed + 1 }

end Place

/-- What has been read is gone on with from where it ends. -/
lemma bind_run {α β : Type} {walk : Walk α} {walk' : α → Walk β} {p q : Place} {x : α}
    (run : walk p = .ok (x, q)) : (walk >>= walk') p = walk' x q := by
  show (walk p >>= fun r => walk' r.1 r.2) = _
  rw [run]
  rfl

/-- What stops a walk stops all that would follow. -/
lemma bind_stop {α β : Type} {walk : Walk α} {walk' : α → Walk β} {p : Place} {stop : Stop}
    (run : walk p = .error stop) : (walk >>= walk') p = .error stop := by
  show (walk p >>= fun r => walk' r.1 r.2) = _
  rw [run]
  rfl

/-- A token that has been passed can be looked back at. -/
lemma previous_next {tokens : List Token} {p : Place} {t : Token}
    (place : tokens[p.passed]? = some t) : Walk.previous tokens p.next = .ok (t, p.next) := by
  show Walk.fetch tokens p.passed p.next = _
  rw [Walk.fetch, place]
  rfl

/-- The tokens ahead of a place are those that its cursor has not read. -/
lemma ahead_eq (tokens : List Token) (p : Place) :
    p.ahead tokens = (p.cursor tokens).rest.length :=
  List.length_drop.symm

section Steps

variable {tokens : List Token} {p : Place} (ended : Grammar.Ended tokens) (within : p.Within tokens)
include ended within

/-- Before the end of the text and at it there is a next token. If it is not the end, there is a
further one. -/
lemma exists_next : ∃ t, tokens[p.passed]? = some t ∧
    (p.cursor tokens).rest = t :: (p.next.cursor tokens).rest ∧
    (t.kind ≠ .endOfText → p.passed < firstEnd tokens) := by
  obtain ⟨last, mem, kind⟩ := ended
  have before : firstEnd tokens < tokens.length :=
    List.findIdx_lt_length_of_exists ⟨last, mem, decide_eq_true kind⟩
  have inside : p.passed < tokens.length := Nat.lt_of_le_of_lt within before
  refine ⟨tokens[p.passed], List.getElem?_eq_getElem inside, List.drop_eq_getElem_cons inside,
    fun inner => Nat.lt_of_le_of_ne within fun same => inner ?_⟩
  -- a place that has come to the first end looks at it
  have found : tokens[firstEnd tokens].kind = .endOfText :=
    of_decide_eq_true (List.findIdx_getElem (w := before))
  simpa only [same] using found

/-- A place within the tokens has one ahead. -/
lemma ahead_pos : 0 < p.ahead tokens := by
  obtain ⟨t, place, -, -⟩ := exists_next ended within
  obtain ⟨inside, -⟩ := List.getElem?_eq_some_iff.mp place
  unfold Place.ahead
  omega

/-- The next token can be looked at. -/
lemma peek_eq : Walk.peek tokens p = .ok ((p.cursor tokens).peek, p) := by
  obtain ⟨t, place, rest, -⟩ := exists_next ended within
  obtain ⟨inside, -⟩ := List.getElem?_eq_some_iff.mp place
  have least : min p.passed (tokens.length - 1) = p.passed := by omega
  show Walk.fetch tokens (min p.passed (tokens.length - 1)) p = _
  rw [least, Walk.fetch, place, Cursor.peek, rest]
  rfl

/-- Looking at the token ahead. -/
lemma peek_bind {α : Type} (f : Token → Walk α) :
    (Walk.peek tokens >>= f) p = f (p.cursor tokens).peek p := by
  show (Walk.peek tokens p >>= fun r => f r.1 r.2) = _
  rw [peek_eq ended within]
  rfl

/-- An error is at the next token. -/
lemma fail_eq {α : Type} (cause : SyntaxError.Cause) :
    Walk.fail (α := α) tokens cause p = .error (.refused ⟨(p.cursor tokens).peek.column, cause⟩) :=
  peek_bind ended within _

/-- Testing the token ahead. -/
lemma check_eq (kinds : List TokenKind) :
    Walk.check tokens kinds p = .ok (((p.cursor tokens).accept? kinds).isSome, p) := by
  obtain ⟨t, -, rest, -⟩ := exists_next ended within
  refine (peek_bind ended within _).trans ?_
  simp only [Cursor.accept?, Cursor.peek, rest, List.headD_cons]
  by_cases fits : t.kind ≠ .endOfText ∧ t.kind ∈ kinds
  · rw [if_pos fits, decide_eq_true fits]
    rfl
  · rw [if_neg fits, decide_eq_false fits]
    rfl

/-- A token that does not end the text is passed and can be looked back at. -/
lemma advance_eq {t : Token} (place : tokens[p.passed]? = some t) (inner : t.kind ≠ .endOfText) :
    Walk.advance tokens p = .ok (t, p.next) ∧ p.next.Within tokens := by
  obtain ⟨u, place', rest, more⟩ := exists_next ended within
  obtain rfl : t = u := Option.some.inj (place.symm.trans place')
  have passed : Walk.pass tokens p = .ok ((), p.next) := by
    show (if p.passed < firstEnd tokens then set p.next else Walk.fault .pastEnd : Walk Unit) p = _
    rw [if_pos (more inner)]
    rfl
  have next : (p.cursor tokens).peek = t := by rw [Cursor.peek, rest]; rfl
  refine ⟨?_, more inner⟩
  refine (peek_bind ended within _).trans ?_
  rw [next, if_neg inner]
  show (Walk.pass tokens p >>= fun r => Walk.previous tokens r.2) = _
  rw [passed]
  exact previous_next place

/-- Either the next token is not of the given kinds, or it is passed as it is at the cursor. -/
lemma token_cases (kinds : List TokenKind) :
    ((p.cursor tokens).accept? kinds = none ∧ Walk.check tokens kinds p = .ok (false, p)) ∨
    ∃ t, (p.cursor tokens).accept? kinds = some (t, p.next.cursor tokens) ∧
      Walk.check tokens kinds p = .ok (true, p) ∧ Walk.advance tokens p = .ok (t, p.next) ∧
      Walk.previous tokens p.next = .ok (t, p.next) ∧ p.next.Within tokens := by
  obtain ⟨t, place, rest, -⟩ := exists_next ended within
  have checked := check_eq ended within kinds
  cases found : (p.cursor tokens).accept? kinds with
  | none =>
    rw [found] at checked
    exact .inl ⟨rfl, checked⟩
  | some r =>
    obtain ⟨u, ts, d⟩ := r
    obtain ⟨rest', depth, inner, -⟩ := Cursor.accept?_eq_some.mp found
    obtain ⟨rfl, rfl⟩ := List.cons.inj (rest.symm.trans rest')
    obtain rfl := depth
    obtain ⟨passed, within'⟩ := advance_eq ended within place inner
    rw [found] at checked
    exact .inr ⟨t, rfl, checked, passed, previous_next place, within'⟩

/-- A step takes one token. -/
lemma ahead_next : p.next.ahead tokens + 1 = p.ahead tokens := by
  have positive := ahead_pos ended within
  show tokens.length - (p.passed + 1) + 1 = tokens.length - p.passed
  rw [Place.ahead] at positive
  omega

end Steps

/-! ### Reading by position is reading by cursor -/

/-- What is read at a place is what is read at its cursor, without a fault, and ends at the place of
the cursor behind it. -/
structure Follows {α : Type} (tokens : List Token) (p : Place) (walk : Walk α) (read : Reader α) :
    Prop where
  refused {e} : read (p.cursor tokens) = .error e → walk p = .error (.refused e)
  ok {x c} : read (p.cursor tokens) = .ok (x, c) →
    ∃ q : Place, walk p = .ok (x, q) ∧ q.Within tokens ∧ q.cursor tokens = c

namespace Follows
open Grammar (Ended Moves)

variable {α β : Type} {tokens : List Token} {p q : Place}
variable {walk walk₁ : Walk α} {read read₁ : Reader α}

/-- The first steps of both may lead to another place. -/
lemma step (h : Follows tokens q walk₁ read₁) (run : walk p = walk₁ q)
    (same : read (p.cursor tokens) = read₁ (q.cursor tokens)) : Follows tokens p walk read where
  refused failed := run.trans (h.refused (same.symm.trans failed))
  ok found := by
    obtain ⟨r, rest, last⟩ := h.ok (same.symm.trans found)
    exact ⟨r, run.trans rest, last⟩

/-- Both may stop. -/
lemma stop {e : SyntaxError} (run : walk p = .error (.refused e))
    (same : read (p.cursor tokens) = .error e) : Follows tokens p walk read where
  refused failed := by
    obtain rfl : e = _ := Except.error.inj (same.symm.trans failed)
    exact run
  ok found := by cases same.symm.trans found

/-- Both may be done. -/
lemma reach {x : α} (run : walk p = .ok (x, q))
    (same : read (p.cursor tokens) = .ok (x, q.cursor tokens)) (within : q.Within tokens) :
    Follows tokens p walk read where
  refused failed := by cases same.symm.trans failed
  ok found := by
    cases same.symm.trans found
    exact ⟨q, run, within, rfl⟩

/-- Nothing is read. -/
lemma done (within : p.Within tokens) (x : α) : Follows tokens p (pure x) (Grammar.done x id) :=
  reach rfl rfl within

/-- Leaving a level is no fault where one is open. -/
lemma surface (within : p.Within tokens) (nested : 0 < p.depth) (x : α) :
    Follows tokens p (do Walk.surface; return x) (Grammar.done x (· - 1)) := by
  have run : Walk.surface p = .ok ((), { p with depth := p.depth - 1 }) := by
    show (if p.depth = 0 then Walk.fault .notNested
      else set { p with depth := p.depth - 1 } : Walk Unit) p = _
    rw [if_neg (Nat.ne_of_gt nested)]
    rfl
  exact reach (bind_run run) rfl within

/-- Reading goes on from the place behind what has been read, of which it is known how far ahead and
how deep that is. -/
lemma andThen {least : Nat} {lands : Nat → Nat → Prop} {walk' : α → Walk β} {next : α → Reader β}
    (h : Follows tokens p walk read) (moves : Moves least lands read)
    (h' : ∀ x q, q.Within tokens → q.ahead tokens + least ≤ p.ahead tokens →
      lands p.depth q.depth → Follows tokens q (walk' x) (next x)) :
    Follows tokens p (walk >>= walk') (Grammar.andThen read next) := by
  cases first : read (p.cursor tokens) with
  | error e =>
    refine stop (bind_stop (h.refused first)) ?_
    rw [Grammar.andThen, first]
    rfl
  | ok r =>
    obtain ⟨x, c⟩ := r
    obtain ⟨q, run, within, rfl⟩ := h.ok first
    obtain ⟨crosses, deep⟩ := moves _ _ _ first
    have further : q.ahead tokens + least ≤ p.ahead tokens := by
      rw [ahead_eq, ahead_eq]
      exact crosses.length_le
    refine (h' x q within further deep).step (bind_run run) ?_
    rw [Grammar.andThen, first]
    rfl

/-- Where the next token fits it is passed, and else nothing happens. -/
lemma branch {nests : Bool} {kinds : List TokenKind} {walk' : Option Token → Walk α}
    {yes : Token → Reader α} {no : Reader α} (ended : Ended tokens) (within : p.Within tokens)
    (h : ∀ t q, q.Within tokens → q.ahead tokens + 1 = p.ahead tokens → q.depth = p.depth →
      Follows tokens q (walk' (some t)) fun c => Grammar.enter nests c >>= yes t)
    (h' : Follows tokens p (walk' none) no) :
    Follows tokens p (Walk.accept? tokens kinds >>= walk') (Grammar.branch nests kinds yes no) := by
  rcases token_cases ended within kinds with ⟨none, run⟩ | ⟨t, some, run, passed, looked, within'⟩
  · have accepted : Walk.accept? tokens kinds p = .ok (.none, p) := bind_run run
    refine h'.step (bind_run accepted) ?_
    simp only [Grammar.branch, none]
  · have accepted : Walk.accept? tokens kinds p = .ok (.some t, p.next) :=
      (bind_run run).trans ((bind_run passed).trans (bind_run looked))
    refine (h t p.next within' (ahead_next ended within) rfl).step (bind_run accepted) ?_
    simp only [Grammar.branch, some]

/-- Nothing is entered by a token that does not nest. -/
lemma stay (h : Follows tokens p walk read) :
    Follows tokens p walk fun c => Grammar.enter false c >>= read :=
  h.step rfl rfl

/-- The level is entered before it is seen whether there is room for it. -/
lemma enter {walk' : Unit → Walk α} (ended : Ended tokens) (within : p.Within tokens)
    (h : ∀ q, q.Within tokens → q.ahead tokens = p.ahead tokens → q.depth = p.depth + 1 →
      Follows tokens q (walk' ()) read) :
    Follows tokens p (Walk.deepen tokens >>= walk') fun c => Grammar.enter true c >>= read := by
  have run : Walk.deepen tokens p = (if nestingLimit < p.depth + 1 then
      Walk.fail tokens .tooDeep else return () : Walk Unit) { p with depth := p.depth + 1 } := rfl
  by_cases room : p.depth < nestingLimit
  · rw [if_neg (Nat.not_lt.mpr room)] at run
    refine (h { p with depth := p.depth + 1 } within rfl rfl).step (bind_run run) ?_
    have entered : (p.cursor tokens).deepen = .ok ⟨(p.cursor tokens).rest, p.depth + 1⟩ :=
      if_pos room
    show ((p.cursor tokens).deepen >>= read) = _
    rw [entered]
    rfl
  · -- the error is found one level deeper than at the cursor, but at the same token
    rw [if_pos (Nat.lt_succ_of_le (Nat.not_lt.mp room))] at run
    have within' : Place.Within tokens { p with depth := p.depth + 1 } := within
    refine stop (bind_stop (run.trans (fail_eq ended within' .tooDeep))) ?_
    have full : (p.cursor tokens).deepen = (p.cursor tokens).fail .tooDeep := if_neg room
    show ((p.cursor tokens).deepen >>= read) = _
    rw [full]
    rfl

/-- A token of one kind is read, or missed. -/
lemma expect {kind : TokenKind} {cause : SyntaxError.Cause} (ended : Ended tokens)
    (within : p.Within tokens) :
    Follows tokens p (Walk.expect tokens kind cause) fun c => c.expect kind cause := by
  rcases token_cases ended within [kind] with ⟨none, run⟩ | ⟨t, some, run, passed, -, within'⟩
  · refine stop ((bind_run run).trans (fail_eq ended within cause)) ?_
    simp only [Cursor.expect, none]
    rfl
  · refine reach ((bind_run run).trans passed) ?_ within'
    simp only [Cursor.expect, some]

/-- The depth is put back on both sides. -/
lemma restoring (h : Follows tokens p walk read) :
    Follows tokens p (Walk.restoring walk) (Grammar.restoring read) := by
  have start : Walk.restoring walk p = (walk >>= fun x => do
      modify fun place => { place with depth := p.depth }
      return x : Walk α) p := rfl
  cases first : read (p.cursor tokens) with
  | error e =>
    refine stop (start.trans (bind_stop (h.refused first))) ?_
    rw [Grammar.restoring, first]
    rfl
  | ok r =>
    obtain ⟨x, c⟩ := r
    obtain ⟨q, run, within, rfl⟩ := h.ok first
    refine reach (q := { q with depth := p.depth }) (start.trans (bind_run run)) ?_ within
    rw [Grammar.restoring, first]
    rfl

/-- The token ahead decides how both sides go on. -/
lemma ahead {kinds : List TokenKind} {walk' : Bool → Walk α} {yes no : Reader α}
    (ended : Ended tokens) (within : p.Within tokens) (h : Follows tokens p (walk' true) yes)
    (h' : Follows tokens p (walk' false) no) :
    Follows tokens p (Walk.check tokens kinds >>= walk') (Grammar.ahead kinds yes no) := by
  have checked := check_eq ended within kinds
  cases found : ((p.cursor tokens).accept? kinds).isSome with
  | true =>
    rw [found] at checked
    refine h.step (bind_run checked) ?_
    rw [Grammar.ahead, if_pos found]
  | false =>
    rw [found] at checked
    refine h'.step (bind_run checked) ?_
    rw [Grammar.ahead, found]
    rfl

end Follows

/-- A walk follows a reader wherever no end of the text has been passed and not too many tokens are
ahead. -/
def Tracks {α : Type} (tokens : List Token) (most : Nat) (walk : Walk α) (read : Reader α) : Prop :=
  ∀ p, p.Within tokens → p.ahead tokens ≤ most → Follows tokens p walk read

/-- A repetition, if one round of it is followed and passes a token before the next one. What is
ahead is always bound enough. -/
lemma tracks_repetition {α β : Type} {tokens : List Token} {most : Nat}
    (walk : Nat → β → Walk α) (read : List Token → β → Reader α) (ended : Grammar.Ended tokens)
    (round : ∀ m t bound x p, p.Within tokens → p.ahead tokens ≤ most →
      (∀ y q, q.Within tokens → q.ahead tokens < p.ahead tokens →
        Follows tokens q (walk m y) (read bound y)) →
      Follows tokens p (walk (m + 1) x) (read (t :: bound) x)) (x : β) :
    Tracks tokens most (walk tokens.length x) fun c => read c.rest x c := by
  have bounded : ∀ bound m x p, p.Within tokens → p.ahead tokens ≤ most →
      p.ahead tokens ≤ bound.length → p.ahead tokens ≤ m →
      Follows tokens p (walk m x) (read bound x) := by
    -- the two repetitions have bounds of their own, and neither is used up before the text is
    intro bound
    induction bound with
    | nil =>
      intro m x p within near short
      exact absurd (ahead_pos ended within) (Nat.not_lt.mpr short)
    | cons t bound ih =>
      intro m x p within near short enough
      have positive := ahead_pos ended within
      rw [List.length_cons] at short
      cases m with
      | zero => omega
      | succ m =>
        refine round m t bound x p within near fun y q within' less => ?_
        exact ih m y q within' (by omega) (by omega) (by omega)
  intro p within near
  have short : p.ahead tokens ≤ (p.cursor tokens).rest.length := Nat.le_of_eq (ahead_eq tokens p)
  exact (bounded _ _ x p within near short (Nat.sub_le _ _)).step rfl rfl

section Readers
open Grammar (Ended Moves Stays)

variable {tokens : List Token} {most : Nat} {op : TokenKind}
variable {walk : Walk Expr} {read : Reader Expr}
variable (ended : Ended tokens) (h : Tracks tokens most walk read) (moves : Moves 1 Stays read)
include ended h moves

/-- The operators of one level, from left to right. -/
lemma tracks_chain (left : Expr) : Tracks tokens most (Walk.chain tokens op walk tokens.length left)
    fun c => chain op read c.rest left c := by
  refine tracks_repetition (Walk.chain tokens op walk) (chain op read) ended
    (fun m t bound left p within near ih => ?_) left
  rw [Walk.chain, Grammar.chain_cons]
  refine .branch ended within (fun t q within one _ => ?_) (.done within left)
  refine .enter ended within fun q within same _ => ?_
  refine .andThen (h q within (by omega)) moves fun right q within further _ => ?_
  exact ih _ q within (by omega)

/-- One level of operators. -/
lemma tracks_level : Tracks tokens most (Walk.level tokens op walk) (level op read) := by
  intro p within near
  rw [Grammar.level_eq]
  refine .restoring (.andThen (h p within near) moves fun left q within further _ => ?_)
  exact tracks_chain ended h moves left q within (by omega)

/-- All levels of operators. -/
lemma tracks_ladder (ops : List TokenKind) :
    Tracks tokens most (Walk.ladder tokens ops walk) (ladder ops read) := by
  induction ops with
  | nil => exact h
  | cons op ops ih => exact tracks_level ended ih (Grammar.moves_ladder moves ops)

/-- The conditions of a chain after the first one. -/
lemma tracks_connectives : Tracks tokens most (Walk.connectives tokens walk tokens.length)
    fun c => connectives read c.rest c := by
  refine tracks_repetition (fun m (_ : Unit) => Walk.connectives tokens walk m)
    (fun bound _ => connectives read bound) ended (fun m t bound _ p within near ih => ?_) ()
  rw [Walk.connectives, Grammar.connectives_cons]
  refine .branch ended within (fun t q within one _ => .stay ?_) (.done within [])
  refine .andThen (h q within (by omega)) moves fun e q within further _ => ?_
  refine .andThen (ih () q within (by omega)) (Grammar.moves_connectives moves bound) ?_
  exact fun _ _ within _ _ => .done within _

/-- A chain of conditions. -/
lemma tracks_logicChain : Tracks tokens most (Walk.logicChain tokens walk) (logicChain read) := by
  intro p within near
  rw [Grammar.logicChain_eq]
  refine .andThen (h p within near) moves fun first q within further _ => ?_
  refine .andThen (tracks_connectives ended h moves q within (by omega))
    (fun c => Grammar.moves_connectives moves c.rest c) ?_
  exact fun _ _ within _ _ => .done within _

/-- The level of an operator is left again after its operand, which has left it alone. -/
lemma tracks_unaryChain : Tracks tokens most (Walk.unaryChain tokens walk) (unaryChain read) := by
  refine tracks_repetition (fun m (_ : Unit) => Walk.signs tokens walk m)
    (fun bound _ => signs read bound) ended (fun m t bound _ p within near ih => ?_) ()
  rw [Walk.signs, Grammar.signs_cons]
  refine .branch ended within (fun t q within one _ => ?_) (h p within near)
  refine .enter ended within fun q within same deeper => ?_
  refine .andThen (ih () q within (by omega)) (Grammar.moves_signs moves bound)
    fun right q within _ stays => ?_
  -- what stands behind the sign ends as deep as it began, and that is below the outermost level
  rw [Stays] at stays
  exact .surface within (by omega) _

/-- The arguments of a call after the first one. -/
lemma tracks_arguments : Tracks tokens most (Walk.arguments tokens walk tokens.length)
    fun c => arguments read c.rest c := by
  refine tracks_repetition (fun m (_ : Unit) => Walk.arguments tokens walk m)
    (fun bound _ => arguments read bound) ended (fun m t bound _ p within near ih => ?_) ()
  rw [Walk.arguments, Grammar.arguments_cons]
  refine .andThen (h p within near) moves fun e q within further _ => ?_
  refine .branch ended within (fun t q within one _ => .stay ?_) (.done within [e])
  refine .andThen (ih () q within (by omega)) (Grammar.moves_arguments moves bound) ?_
  exact fun _ _ within _ _ => .done within _

/-- All arguments of a call. -/
lemma tracks_argumentList : Tracks tokens most (Walk.argumentList tokens walk)
    (Grammar.ahead [.rightParen] (Grammar.done [] id) fun c => arguments read c.rest c) := by
  intro p within near
  exact .ahead ended within (.done within []) (tracks_arguments ended h moves p within near)

end Readers

section Brackets
open Grammar (Ended Moves Stays)

variable {tokens : List Token} {most : Nat} {walk : Walk Expr} {read : Reader Expr}
variable (ended : Ended tokens)
include ended

/-- A closing bracket leaves the level that its opening one has entered. -/
lemma follows_closing {α : Type} {p : Place} {kind : TokenKind} {cause : SyntaxError.Cause}
    (within : p.Within tokens) (nested : 0 < p.depth) (x : α) :
    Follows tokens p (do let _ ← Walk.expect tokens kind cause; Walk.surface; return x)
      (Grammar.andThen (fun c => c.expect kind cause) fun _ => Grammar.done x (· - 1)) := by
  refine .andThen (.expect ended within) (.expect kind cause) fun _ q within _ stays => ?_
  rw [Stays] at stays
  exact .surface within (by omega) x

variable (h : Tracks tokens most walk read) (moves : Moves 1 Stays read)
include h moves

/-- A call after its name. -/
lemma tracks_callTail (callee : Token) : Tracks tokens most (Walk.callTail tokens walk callee)
    fun c => Grammar.enter true c >>= Grammar.callRest read callee := by
  intro p within near
  refine .enter ended within fun q within same deeper => ?_
  refine .andThen (tracks_argumentList ended h moves q within (by omega))
    (Grammar.moves_argumentList moves) fun es q within _ stays => ?_
  rw [Stays] at stays
  exact follows_closing ended within (by omega) _

/-- A group after its parenthesis. -/
lemma tracks_groupTail : Tracks tokens most (Walk.groupTail tokens walk)
    fun c => Grammar.enter true c >>= Grammar.groupRest read := by
  intro p within near
  refine .enter ended within fun q within same deeper => ?_
  refine .andThen (h q within (by omega)) moves fun e q within _ stays => ?_
  rw [Stays] at stays
  exact follows_closing ended within (by omega) _

omit h moves in
/-- The mode of a range. -/
lemma tracks_rangeMode : Tracks tokens most (Walk.rangeMode tokens) rangeMode := by
  intro p within _
  rw [Grammar.rangeMode_eq, Grammar.readFlag_eq]
  refine .branch ended within (fun _ q within _ _ => .stay ?_) (.done within _)
  refine .andThen (.expect ended within) (.expect .identifier .missingMode)
    fun flag q within _ _ => ?_
  by_cases integer : flag.lexeme = "i"
  · rw [if_pos integer]
    exact .reach rfl (if_pos integer) within
  · rw [if_neg integer]
    by_cases real : flag.lexeme = "d"
    · rw [if_pos real]
      exact .reach rfl ((if_neg integer).trans (if_pos real)) within
    · rw [if_neg real]
      exact .stop rfl ((if_neg integer).trans (if_neg real))

/-- A range after its bracket. -/
lemma tracks_rangeTail : Tracks tokens most (Walk.rangeTail tokens walk)
    fun c => Grammar.enter true c >>= Grammar.rangeRest read := by
  intro p within near
  refine .enter ended within fun q within same deeper => ?_
  refine .andThen (h q within (by omega)) moves fun low q within further low_stays => ?_
  refine .andThen (.expect ended within) (.expect .colon .missingColon)
    fun _ q within further' colon_stays => ?_
  refine .andThen (h q within (by omega)) moves fun high q within _ high_stays => ?_
  refine .andThen (tracks_rangeMode ended q within (Nat.le_refl _)) Grammar.moves_rangeMode
    fun mode q within _ mode_stays => ?_
  rw [Stays] at low_stays colon_stays high_stays mode_stays
  exact follows_closing ended within (by omega) _

omit h moves in
/-- A token that begins no expression. -/
lemma tracks_noExpression : Tracks tokens most (Walk.noExpression tokens) noExpression := by
  intro p within _
  have start : Walk.noExpression tokens p = _ := peek_bind ended within _
  by_cases last : (p.cursor tokens).peek.kind = .endOfText
  · rw [if_pos last] at start
    exact .stop (start.trans (fail_eq ended within _)) (if_pos last)
  · rw [if_neg last] at start
    exact .stop (start.trans (fail_eq ended within _)) (if_neg last)

/-- A name, or a call if a parenthesis follows. -/
lemma tracks_named (name : Token) : Tracks tokens most (Walk.named tokens walk name)
    (Grammar.branch true [.leftParen] (fun _ => Grammar.callRest read name)
      (Grammar.done (.ref name) id)) := by
  intro p within near
  refine .branch ended within (fun _ q within one _ => ?_) (.done within _)
  exact tracks_callTail ended h moves name q within (by omega)

/-- What stands in brackets is read with one token less ahead. -/
lemma tracks_primary : Tracks tokens (most + 1) (Walk.primary tokens walk) (primary read) := by
  intro p within near
  rw [Grammar.primary_eq]
  refine .branch ended within (fun _ q within _ _ => .stay (.done within _)) ?_
  refine .branch ended within (fun name q within one _ => .stay ?_) ?_
  · exact tracks_named ended h moves name q within (by omega)
  · refine .branch ended within (fun _ q within one _ => ?_) ?_
    · exact tracks_groupTail ended h moves q within (by omega)
    · refine .branch ended within (fun _ q within one _ => ?_)
        (tracks_noExpression ended p within near)
      exact tracks_rangeTail ended h moves q within (by omega)

end Brackets

/-- An expression is followed with any bound on the brackets to come that is at least what is
ahead. -/
lemma tracks_expression {tokens : List Token} (ended : Grammar.Ended tokens) (n : Nat) :
    Tracks tokens n (Walk.expression tokens n) (expression n) := by
  induction n with
  | zero =>
    intro p within near
    exact absurd (ahead_pos ended within) (Nat.not_lt.mpr near)
  | succ n ih =>
    have moves := Grammar.moves_expression n
    have operand := tracks_unaryChain ended (tracks_primary ended ih moves)
      (Grammar.moves_primary moves)
    have further := Grammar.moves_unaryChain (Grammar.moves_primary moves)
    exact tracks_logicChain ended (tracks_ladder ended operand further levels)
      (Grammar.moves_ladder further levels)

/-- The whole text is followed from its first token on. -/
lemma parseByPlace_eq {tokens : List Token} (ended : Grammar.Ended tokens) :
    parseByPlace tokens = (parse tokens).mapError .refused := by
  have start : Place.Within tokens ⟨0, 0⟩ := Nat.zero_le _
  have all := tracks_expression ended tokens.length ⟨0, 0⟩ start (Nat.sub_le _ _)
  show Prod.fst <$> Walk.wholeText tokens ⟨0, 0⟩ = _
  cases read : expression tokens.length ⟨tokens, 0⟩ with
  | error e =>
    have stopped : Walk.wholeText tokens ⟨0, 0⟩ = _ := bind_stop (all.refused read)
    rw [stopped, Grammar.parse_of_error read]
    rfl
  | ok r =>
    obtain ⟨x, c⟩ := r
    obtain ⟨q, run, within, rfl⟩ := all.ok read
    have looked : Walk.wholeText tokens ⟨0, 0⟩ = _ :=
      (bind_run run).trans (peek_bind ended within _)
    rw [looked, parse, read]
    by_cases done : (q.cursor tokens).peek.kind = .endOfText
    · simp only [Grammar.ok_bind, if_pos done]
      rfl
    · simp only [Grammar.ok_bind, if_neg done, fail_eq ended within]
      rfl

-- without an end of the text, the last token is looked at again and again
example : parseByPlace [⟨.minus, "-", none, 1⟩] = .error (.faulty .unbounded) := rfl

/-- The parts of the grammar that are read by a routine of their own. Those of a call and a range
begin behind the bracket that opens them. -/
inductive Routine where
  | logic
  | binary (level : Nat)
  | unary
  | primary
  | call (callee : Token)
  | range

/-- The reader of a routine, for less than `n` enclosing brackets that are still to come. -/
def Routine.reader (n : Nat) : Routine → Reader Expr
  | .logic => expression (n + 1)
  | .binary level => ladder (levels.drop level) (unaryChain (Expr.primary (expression n)))
  | .unary => unaryChain (Expr.primary (expression n))
  | .primary => Expr.primary (expression n)
  | .call callee => callTail (expression n) callee
  | .range => rangeTail (expression n)

/-- Every routine moves on by a token at least. -/
lemma Routine.moves (n : Nat) (r : Routine) : Grammar.Moves 1 Grammar.Stays (r.reader n) := by
  have inner := Grammar.moves_expression n
  have primary := Grammar.moves_primary inner
  have unary := Grammar.moves_unaryChain primary
  cases r with
  | logic => exact Grammar.moves_expression (n + 1)
  | binary level => exact Grammar.moves_ladder unary _
  | unary => exact unary
  | primary => exact primary
  | call callee => exact Grammar.moves_callTail inner callee
  | range => exact Grammar.moves_rangeTail inner

/-- Reading tokens that end with the end of the text meets no fault, and every routine passes a
token at least, passes no end of the text, and leaves the nesting as it found it. -/
theorem cursor_stays_safe (init : List Token) (last : Token) (eof : last.kind = .endOfText) :
    parseByPlace (init ++ [last]) = (parse (init ++ [last])).mapError .refused ∧
    ∀ (n : Nat) (r : Routine) (c c' : Cursor) (e : Expr), r.reader n c = .ok (e, c') →
      c'.depth = c.depth ∧ Grammar.Crosses 1 c c' := by
  refine ⟨parseByPlace_eq ⟨last, List.mem_append_right _ List.mem_cons_self, eof⟩, ?_⟩
  intro n r c c' e read
  obtain ⟨crosses, stays⟩ := r.moves n c e c' read
  exact ⟨stays, crosses⟩

/-- `f(-a)` with a parenthesis behind the end of the text. -/
def overlong : List Token :=
  [⟨.identifier, "f", none, 1⟩, ⟨.leftParen, "(", none, 2⟩, ⟨.minus, "-", none, 3⟩,
    ⟨.identifier, "a", none, 4⟩, ⟨.rightParen, ")", none, 5⟩, ⟨.endOfText, "", none, 6⟩,
    ⟨.rightParen, ")", none, 7⟩]

/-- The call is read up to the first end of the text. Its arguments, read where the nesting is as
deep as it may be but for two levels, leave it so. -/
theorem cursor_stays_safe_overlong :
    parseByPlace (overlong ++ [⟨.endOfText, "", none, 8⟩]) =
      .ok (.call ⟨.identifier, "f", none, 1⟩
        [.unary ⟨.minus, "-", none, 3⟩ (.ref ⟨.identifier, "a", none, 4⟩)]) ∧
    Grammar.Crosses 1 ⟨overlong.drop 2, 62⟩ ⟨overlong.drop 5, 62⟩ := by
  obtain ⟨same, routines⟩ := cursor_stays_safe overlong ⟨.endOfText, "", none, 8⟩ rfl
  refine ⟨same.trans rfl, ?_⟩
  exact (routines 5 (.call ⟨.identifier, "f", none, 1⟩) _ _ _ rfl).2

end Linework.Expr
