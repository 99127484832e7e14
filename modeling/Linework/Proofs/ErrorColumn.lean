import Linework.Proofs.Lookahead

/-!
# Where an error in an expression points to

Every reader of the expression grammar foresees: it is made of parts that do, and what it reads are
the phrases of its symbol. So an error names the first token with which the tokens before cannot be
continued to an expression, or the one after it if that token nests too deeply.
-/

namespace Linework

namespace SyntaxError

/-- A wording that begins with another letter is about something else. -/
lemma quoting_ne_tooDeep {before : String} {a : Char} (first : before.toList.head? = some a)
    (other : a ≠ 'E') (text after : String) :
    before ++ text ++ after ≠ "Expression nested too deeply" := by
  intro h
  have deep : "Expression nested too deeply".toList.head? = some 'E' := by simp
  rw [← h, String.toList_append, String.toList_append, List.head?_append, List.head?_append, first]
    at deep
  exact other (Option.some.inj deep)

/-- The wording tells which errors are about nesting. -/
lemma Cause.message_eq_tooDeep {cause : Cause} :
    cause.message = "Expression nested too deeply" ↔ cause = .tooDeep := by
  constructor
  · intro h
    cases cause with
    | tooDeep => rfl
    | unexpectedOperand text =>
      have first : "Unexpected operand '".toList.head? = some 'U' := by simp
      exact absurd h (quoting_ne_tooDeep first (by decide) text _)
    | trailing lexeme | unexpected lexeme =>
      have first : "Unexpected '".toList.head? = some 'U' := by simp
      exact absurd h (quoting_ne_tooDeep first (by decide) lexeme _)
    | unknownMode flag =>
      have first : "Unknown range mode '".toList.head? = some 'U' := by simp
      exact absurd h (quoting_ne_tooDeep first (by decide) flag _)
    | invalidNumber text =>
      have first : "Invalid number '".toList.head? = some 'I' := by simp
      exact absurd h (quoting_ne_tooDeep first (by decide) text _)
    | _ => exact absurd h (by decide)
  · rintro rfl
    rfl

end SyntaxError

namespace Grammar
open Linework.Expr (Cursor Reader nestingLimit levels)

/-- The phrases of a symbol whose modes exist, where there is room for them. -/
def Symbol.phrases (s : Symbol) : Phrases := fun depth ts depth' =>
  depth' = depth ∧ ∃ d : Derivation s, d.yield = ts ∧ depth + d.demand ≤ nestingLimit ∧ d.Known

/-- A symbol with a phrase that needs no room is live. -/
lemma live_phrases {s : Symbol} (d : Derivation s) (free : d.demand = 0) (known : d.Known) :
    Live s.phrases := by
  intro depth room
  exact ⟨d.yield, depth, room, rfl, d, rfl, by omega, known⟩

/-- Some expression can always follow. -/
lemma live_logic : Live Symbol.logic.phrases :=
  live_phrases (.single (.lift levels (.ofName "x" 0))) rfl ⟨by simp [Derivation.ofName], trivial⟩

/-- Some signed operand can always follow. -/
lemma live_unary : Live Symbol.unary.phrases := live_phrases (.ofName "x" 0) rfl trivial

/-- Some operand can always follow. -/
lemma live_primary : Live Symbol.primary.phrases :=
  live_phrases (.name ⟨⟨.identifier, "x", none, 0⟩, List.mem_singleton.mpr rfl⟩) rfl trivial

/-- The rest of a chain of conditions can always follow. -/
lemma live_conditions : Live Symbol.conditions.phrases := live_phrases .noCondition rfl trivial

/-- The rest of the arguments can always follow. -/
lemma live_arguments : Live Symbol.arguments.phrases := live_phrases .noArgument rfl trivial

/-- A mode can always follow. -/
lemma live_mode : Live Symbol.mode.phrases := live_phrases .noMode rfl trivial

/-- Further operations, after which the nesting is as deep as the last operand was. -/
def operationPhrases (op : TokenKind) (ops : List TokenKind) : Phrases := fun depth ts _ =>
  (Symbol.operations op ops).phrases depth ts depth

/-- The rest of a level of operators can always follow. -/
lemma live_operations (op : TokenKind) (ops : List TokenKind) : Live (operationPhrases op ops) := by
  intro depth room
  exact ⟨[], depth, room, rfl, .noOperation, rfl, room, trivial⟩

/-- Nothing can always follow. -/
lemma live_done : Live (.nothing id) := live_nothing fun _ h => h

/-- Nothing can always follow, one level further out. -/
lemma live_surface : Live (.nothing (· - 1)) := live_nothing fun _ h => by omega

section Readers

variable {ι : Type} {size size' : ι → Nat} {i : ι} {operand inner : ι → Reader Expr}
variable {op : TokenKind} {ops : List TokenKind}

/-- Reading nothing foresees. -/
lemma foresees_done {α : Type} (x : α) : Foresees size (fun _ => done x id) (.nothing id) i :=
  .done (fun _ h => h) x

/-- Reading nothing foresees, one level further out. -/
lemma foresees_surface {α : Type} (x : α) :
    Foresees size (fun _ => done x (· - 1)) (.nothing (· - 1)) i :=
  .done (fun _ h => by omega) x

/-- A part of one round, for the bounds that the round goes on with. -/
lemma Foresees.inRound {s : Symbol} (h : Foresees size operand s.phrases i) (bound : List Token) :
    Foresees (fun p : ι × List Token => min (size p.1) p.2.tail.length) (fun p => operand p.1)
      s.phrases (i, bound) :=
  h.reindex Prod.fst fun _ => Nat.min_le_left _ _

/-- With one more token in its bound, a chain of operators may read one more operator. -/
lemma chain_cons (operand : Reader Expr) (t : Token) (bound : List Token) (left : Expr) :
    Expr.chain op operand (t :: bound) left =
      branch true [op]
        (fun t => andThen operand fun right => Expr.chain op operand bound (.binary left t right))
        (done left id) := by
  funext c
  simp only [Expr.chain, branch]
  cases c.accept? [op] <;> rfl

/-- The operators of one level, by induction on the bound. -/
lemma foresees_chain (h : Foresees size operand (Symbol.binary ops).phrases i)
    (proper : op :: ops <:+ levels) (left : Expr) :
    Foresees size (fun i c => Expr.chain op (operand i) c.rest left c) (operationPhrases op ops)
      i := by
  refine .repetition (fun i => Expr.chain op (operand i)) (fun i => chain_cons (operand i))
    (fun bound ih left => ?_) left
  refine .branch (fun _ => (Symbol.binary ops).phrases.seq (operationPhrases op ops))
    (endOfText_not_mem proper) (fun t _ => ?_) ?_ (live_operations op ops) ?_ Foresees.min_le_tail
  · exact (h.inRound bound).andThen (fun right => ih (.binary left t right))
      (live_operations op ops)
  · refine (foresees_done left).mono ?_
    rintro d _ _ room ⟨rfl, rfl⟩
    exact ⟨rfl, .noOperation, rfl, room, trivial⟩
  · rintro t d _ d' kind room
      ⟨_, _, _, rfl, ⟨rfl, e, rfl, room₁, known₁⟩, -, rest, rfl, room₂, known₂⟩
    refine ⟨rfl, .operation ⟨t, kind⟩ e rest, rfl, ?_, known₁, known₂⟩
    simp only [Bool.toNat_true, Derivation.demand] at room₁ room₂ ⊢
    omega

/-- A level of operators is an operand and a chain of operators. -/
lemma level_eq (op : TokenKind) (operand : Reader Expr) :
    Expr.level op operand =
      restoring (andThen operand fun left c => Expr.chain op operand c.rest left c) := by
  funext c
  simp only [Expr.level, restoring, andThen]
  cases operand c <;> rfl

/-- One level of operators. -/
lemma foresees_level (h : Foresees size operand (Symbol.binary ops).phrases i)
    (proper : op :: ops <:+ levels) :
    Foresees size (fun i => Expr.level op (operand i)) (Symbol.binary (op :: ops)).phrases i := by
  simp only [level_eq]
  refine (h.andThen (foresees_chain h proper) (live_operations op ops)).restoring.mono ?_
  rintro d _ _ - ⟨rfl, _, _, _, _, rfl, ⟨rfl, e, rfl, room₁, known₁⟩, -, rest, rfl, room₂, known₂⟩
  refine ⟨rfl, .level e rest, rfl, ?_, known₁, known₂⟩
  simp only [Derivation.demand]
  omega

/-- All levels foresee, if the operands of the tightest one do. -/
lemma foresees_ladder (h : Foresees size operand Symbol.unary.phrases i) (ops : List TokenKind)
    (proper : ops <:+ levels) :
    Foresees size (fun i => Expr.ladder ops (operand i)) (Symbol.binary ops).phrases i := by
  induction ops with
  | nil =>
    refine h.mono ?_
    rintro d _ _ - ⟨rfl, e, rfl, room, known⟩
    exact ⟨rfl, .operand e, rfl, room, known⟩
  | cons op ops ih => exact foresees_level (ih ((List.suffix_cons op ops).trans proper)) proper

/-- With one more token in its bound, a chain of conditions may read one more of them. -/
lemma connectives_cons (operand : Reader Expr) (t : Token) (bound : List Token) :
    Expr.connectives operand (t :: bound) =
      branch false [.andAnd, .orOr]
        (fun t => andThen operand fun e => andThen (Expr.connectives operand bound) fun rest =>
          done ((t, e) :: rest) id)
        (done [] id) := by
  funext c
  simp only [Expr.connectives, branch]
  cases c.accept? [.andAnd, .orOr] <;> rfl

/-- The conditions of a chain after the first one, by induction on the bound. -/
lemma foresees_connectives (h : Foresees size operand (Symbol.binary levels).phrases i) :
    Foresees size (fun i c => Expr.connectives (operand i) c.rest c) Symbol.conditions.phrases
      i := by
  refine .repetition (fun i bound (_ : Unit) => Expr.connectives (operand i) bound)
    (fun i t bound _ => connectives_cons (operand i) t bound) (fun bound ih _ => ?_) ()
  refine .branch (fun _ => (Symbol.binary levels).phrases.seq
      (Symbol.conditions.phrases.seq (.nothing id)))
    (by decide) (fun t _ => ?_) ?_ live_conditions ?_ Foresees.min_le_tail
  · refine (h.inRound bound).andThen (fun e => ?_) (live_conditions.seq live_done)
    exact (ih ()).andThen (fun rest => foresees_done _) live_done
  · refine (foresees_done _).mono ?_
    rintro d _ _ room ⟨rfl, rfl⟩
    exact ⟨rfl, .noCondition, rfl, room, trivial⟩
  · rintro t d _ _ kind - ⟨_, _, _, rfl, ⟨rfl, e, rfl, room₁, known₁⟩, _, _, _, rfl,
      ⟨rfl, rest, rfl, room₂, known₂⟩, rfl, rfl⟩
    refine ⟨rfl, .condition ⟨t, kind⟩ e rest, by simp, ?_, known₁, known₂⟩
    simp only [Bool.toNat_false, Derivation.demand] at room₁ room₂ ⊢
    omega

/-- A chain of conditions is an operand and what is connected with it. -/
lemma logicChain_eq (operand : Reader Expr) :
    Expr.logicChain operand =
      andThen operand fun first => andThen (fun c => Expr.connectives operand c.rest c) fun rest =>
        done (if rest.isEmpty then first else .logic first rest) id :=
  rfl

/-- A chain of conditions. -/
lemma foresees_logicChain (h : Foresees size operand (Symbol.binary levels).phrases i) :
    Foresees size (fun i => Expr.logicChain (operand i)) Symbol.logic.phrases i := by
  simp only [logicChain_eq]
  have further := fun first => (foresees_connectives h).andThen
    (fun rest => foresees_done (if rest.isEmpty then first else Expr.logic first rest)) live_done
  refine (h.andThen further (live_conditions.seq live_done)).mono ?_
  rintro d _ _ - ⟨_, _, _, rfl, ⟨rfl, e, rfl, room₁, known₁⟩, _, _, _, rfl,
    ⟨rfl, rest, rfl, room₂, known₂⟩, rfl, rfl⟩
  refine ⟨rfl, .logic e rest, by simp, ?_, known₁, known₂⟩
  simp only [Derivation.demand]
  omega

/-- With one more token in the bound, one more sign may be read. -/
lemma signs_cons (operand : Reader Expr) (t : Token) (bound : List Token) :
    Expr.signs operand (t :: bound) =
      branch true [.bang, .minus]
        (fun t => andThen (Expr.signs operand bound) fun right => done (.unary t right) (· - 1))
        operand := by
  funext c
  simp only [Expr.signs, branch]
  cases c.accept? [.bang, .minus] <;> rfl

/-- Signs and their operand, by induction on the bound. -/
lemma foresees_unaryChain (h : Foresees size operand Symbol.primary.phrases i) :
    Foresees size (fun i => Expr.unaryChain (operand i)) Symbol.unary.phrases i := by
  refine .repetition (fun i bound (_ : Unit) => Expr.signs (operand i) bound)
    (fun i t bound _ => signs_cons (operand i) t bound) (fun bound ih _ => ?_) ()
  refine .branch (fun _ => Symbol.unary.phrases.seq (.nothing (· - 1))) (by decide) (fun t _ => ?_)
    ?_ live_unary ?_ Foresees.min_le_tail
  · exact (ih ()).andThen (fun right => foresees_surface _) live_surface
  · refine (h.reindex Prod.fst fun _ => Nat.min_le_left _ _).mono ?_
    rintro d _ _ - ⟨rfl, e, rfl, room, known⟩
    exact ⟨rfl, .unsigned e, rfl, room, known⟩
  · rintro t d _ _ kind - ⟨_, _, _, rfl, ⟨rfl, e, rfl, room, known⟩, rfl, rfl⟩
    refine ⟨rfl, .sign ⟨t, kind⟩ e, by simp, ?_, known⟩
    simp only [Bool.toNat_true, Derivation.demand] at room ⊢
    omega

/-- With one more token in the bound, one more argument may be read. -/
lemma arguments_cons (inner : Reader Expr) (t : Token) (bound : List Token) :
    Expr.arguments inner (t :: bound) =
      andThen inner fun e => branch false [.comma]
        (fun _ => andThen (Expr.arguments inner bound) fun es => done (e :: es) id)
        (done [e] id) := by
  funext c
  simp only [Expr.arguments, andThen, branch]
  cases inner c with
  | error e => rfl
  | ok p =>
    simp only [ok_bind]
    cases p.2.accept? [.comma] <;> rfl

/-- The arguments of a call, by induction on the bound. -/
lemma foresees_arguments (h : Foresees size inner Symbol.logic.phrases i) :
    Foresees size (fun i c => Expr.arguments (inner i) c.rest c)
      (Symbol.logic.phrases.seq Symbol.arguments.phrases) i := by
  refine .repetition (fun i bound (_ : Unit) => Expr.arguments (inner i) bound)
    (fun i t bound _ => arguments_cons (inner i) t bound) (fun bound ih _ => ?_) ()
  refine (h.reindex Prod.fst fun _ => Nat.min_le_left _ _).andThen (fun e => ?_) live_arguments
  refine .branch
    (fun _ => (Symbol.logic.phrases.seq Symbol.arguments.phrases).seq (.nothing id))
    (by decide) (fun t _ => ?_) ?_ live_arguments ?_ Foresees.min_le_tail
  · exact (ih ()).andThen (fun es => foresees_done _) live_done
  · refine (foresees_done _).mono ?_
    rintro d _ _ room ⟨rfl, rfl⟩
    exact ⟨rfl, .noArgument, rfl, room, trivial⟩
  · rintro t d _ _ kind - ⟨_, _, _, rfl, ⟨_, _, _, rfl, ⟨rfl, e, rfl, room₁, known₁⟩,
      rfl, rest, rfl, room₂, known₂⟩, rfl, rfl⟩
    refine ⟨rfl, .argument ⟨t, kind⟩ e rest, by simp, ?_, known₁, known₂⟩
    simp only [Bool.toNat_false, Derivation.demand] at room₁ room₂ ⊢
    omega

/-- The name of a mode that exists. -/
def flagPhrases : Phrases := fun depth ts depth' =>
  depth' = depth ∧ ∃ flag : TokenOf [.identifier],
    (flag.1.lexeme = "i" ∨ flag.1.lexeme = "d") ∧ ts = [flag.1]

/-- The name of a mode can always follow. -/
lemma live_flag : Live flagPhrases := by
  intro depth room
  exact ⟨[⟨.identifier, "i", none, 0⟩], depth, room, rfl, ⟨_, List.mem_singleton.mpr rfl⟩, .inl rfl,
    rfl⟩

/-- The mode that a token names. -/
def flagMode (flag : Token) : Except SyntaxError RangeMode :=
  if flag.kind = .identifier then
    if flag.lexeme = "i" then .ok .integer
    else if flag.lexeme = "d" then .ok .real
    else .error ⟨flag.column, .unknownMode flag.lexeme⟩
  else .error ⟨flag.column, .missingMode⟩

/-- Two letters name modes. -/
lemma flagMode_ok {flag : Token} {mode : RangeMode} (h : flagMode flag = .ok mode) :
    flag.kind = .identifier ∧ (flag.lexeme = "i" ∨ flag.lexeme = "d") := by
  unfold flagMode at h
  grind

/-- The error of an unknown mode points at its name. -/
lemma flagMode_error {flag : Token} {e : SyntaxError} (h : flagMode flag = .error e) :
    e.column = flag.column ∧ e.cause ≠ .tooDeep := by
  unfold flagMode at h
  grind

/-- Reads the name of a mode. -/
def readFlag : Reader RangeMode := fun c => do
  let (flag, c) ← c.expect .identifier .missingMode
  if flag.lexeme = "i" then return (.integer, c)
  else if flag.lexeme = "d" then return (.real, c)
  else .error ⟨flag.column, .unknownMode flag.lexeme⟩

/-- A name that is no mode is at fault, as a token is that is no name. -/
lemma foresees_flag : Foresees size (fun _ => readFlag) flagPhrases i := by
  refine .token flagMode ?_ ?_ ?_ live_flag
  · intro t rest depth
    by_cases word : t.kind = .identifier
    · simp only [readFlag, flagMode, if_pos word, ok_bind,
        expect_of_mem ⟨t, List.mem_singleton.mpr word⟩ rest depth (by decide)]
      split
      · rfl
      · split <;> rfl
    · have other : t.kind ∉ [.identifier] := fun mem => word (List.mem_singleton.mp mem)
      simp only [readFlag, flagMode, if_neg word, Cursor.expect, accept?_of_not_mem other]
      rfl
  · intro t mode judged
    obtain ⟨word, known⟩ := flagMode_ok judged
    exact ⟨by rw [word]; decide,
      fun _ _ => ⟨rfl, ⟨t, List.mem_singleton.mpr word⟩, known, rfl⟩⟩
  · exact fun t e judged => flagMode_error judged

/-- A mode begins with a colon, or there is none. -/
lemma rangeMode_eq :
    Expr.rangeMode = branch false [.colon] (fun _ => readFlag) (done .auto id) := by
  funext c
  simp only [Expr.rangeMode, branch]
  cases c.accept? [.colon] <;> rfl

/-- The mode of a range. -/
lemma foresees_rangeMode :
    Foresees size (fun _ => Expr.rangeMode) Symbol.mode.phrases i := by
  rw [rangeMode_eq]
  refine .branch (fun _ => flagPhrases) (by decide) (fun _ _ => foresees_flag) ?_ live_mode ?_
    fun j => Nat.le_succ (size j)
  · refine (foresees_done _).mono ?_
    rintro d _ _ room ⟨rfl, rfl⟩
    exact ⟨rfl, .noMode, rfl, room, trivial⟩
  · rintro t d _ _ kind room ⟨rfl, flag, known, rfl⟩
    exact ⟨rfl, .flag ⟨t, kind⟩ flag, rfl, room, known⟩

/-- A call after its opening parenthesis. -/
def callPhrases : Phrases :=
  Phrases.seq
    (fun d ts d' => Phrases.nothing id d ts d' ∨
      (Symbol.logic.phrases.seq Symbol.arguments.phrases) d ts d')
    (.seq (.single .rightParen) (.nothing (· - 1)))

/-- The arguments of a call and its closing parenthesis. -/
def callRest (inner : Reader Expr) (callee : Token) : Reader Expr :=
  andThen (ahead [.rightParen] (done [] id) fun c => Expr.arguments inner c.rest c) fun es =>
    andThen (fun c => c.expect .rightParen .unclosedArguments) fun _ =>
      done (.call callee es) (· - 1)

/-- What follows the parenthesis of a call is one level further in. -/
lemma callTail_eq (inner : Reader Expr) (callee : Token) (c : Cursor) :
    Expr.callTail inner callee c = (enter true c >>= callRest inner callee) := by
  unfold Expr.callTail enter
  rw [if_pos rfl]
  cases c.deepen with
  | error e => rfl
  | ok c =>
    simp only [ok_bind, callRest, andThen, ahead]
    cases (c.accept? [.rightParen]).isSome <;> rfl

/-- A call after its parenthesis. -/
lemma foresees_call (h : Foresees size inner Symbol.logic.phrases i) (callee : Token) :
    Foresees size (fun i => callRest (inner i) callee) callPhrases i := by
  have closing : ∀ es, Foresees size
      (fun _ => andThen (fun c => c.expect .rightParen .unclosedArguments) fun _ =>
        done (Expr.call callee es) (· - 1))
      (.seq (.single .rightParen) (.nothing (· - 1))) i := fun es =>
    (Foresees.expect (by decide) (by decide)).andThen (fun _ => foresees_surface _) live_surface
  refine .andThen (.ahead (by decide) ?_ ?_) closing ((live_single _).seq live_surface)
  · exact (foresees_done _).mono fun _ _ _ _ phrase => .inl phrase
  · exact (foresees_arguments h).mono fun _ _ _ _ phrase => .inr phrase

/-- A group after its opening parenthesis. -/
def groupPhrases : Phrases :=
  Symbol.logic.phrases.seq (.seq (.single .rightParen) (.nothing (· - 1)))

/-- The content of a group and its closing parenthesis. -/
def groupRest (inner : Reader Expr) : Reader Expr :=
  andThen inner fun e => andThen (fun c => c.expect .rightParen .unclosedGroup) fun _ =>
    done (.group e) (· - 1)

/-- A group after its parenthesis. -/
lemma foresees_group (h : Foresees size inner Symbol.logic.phrases i) :
    Foresees size (fun i => groupRest (inner i)) groupPhrases i := by
  refine h.andThen (fun e => ?_) ((live_single _).seq live_surface)
  exact (Foresees.expect (by decide) (by decide)).andThen (fun _ => foresees_surface _) live_surface

/-- A range after its opening bracket. -/
def rangePhrases : Phrases :=
  Symbol.logic.phrases.seq <| .seq (.single .colon) <| Symbol.logic.phrases.seq <|
    Symbol.mode.phrases.seq <| .seq (.single .rightBracket) (.nothing (· - 1))

/-- The bounds of a range, its mode and its closing bracket. -/
def rangeRest (inner : Reader Expr) : Reader Expr :=
  andThen inner fun low => andThen (fun c => c.expect .colon .missingColon) fun _ =>
    andThen inner fun high => andThen Expr.rangeMode fun mode =>
      andThen (fun c => c.expect .rightBracket .unclosedRange) fun _ =>
        done (.range low high mode) (· - 1)

/-- A range after its bracket. -/
lemma foresees_range (h : Foresees size inner Symbol.logic.phrases i) :
    Foresees size (fun i => rangeRest (inner i)) rangePhrases i := by
  have live_closing := (live_single .rightBracket).seq live_surface
  have live_high := live_logic.seq (live_mode.seq live_closing)
  refine h.andThen (fun low => ?_) ((live_single _).seq live_high)
  refine (Foresees.expect (by decide) (by decide)).andThen (fun _ => ?_) live_high
  refine h.andThen (fun high => ?_) (live_mode.seq live_closing)
  refine foresees_rangeMode.andThen (fun mode => ?_) live_closing
  exact (Foresees.expect (by decide) (by decide)).andThen (fun _ => foresees_surface _) live_surface

/-- A token that begins no expression is at fault. -/
lemma foresees_noExpression {phrases : Phrases} (live : Live phrases) :
    Foresees size (fun _ => Expr.noExpression) phrases i := by
  refine .token (fun t =>
    if t.kind = .endOfText then .error ⟨t.column, .expectExpression⟩
    else .error ⟨t.column, .unexpected t.lexeme⟩) ?_ ?_ ?_ live
  · intro t rest depth
    by_cases last : t.kind = .endOfText
    · rw [if_pos last]
      exact if_pos last
    · rw [if_neg last]
      exact if_neg last
  · intro t x
    split <;> rintro ⟨⟩
  · intro t e
    split <;> (rintro ⟨⟩; exact ⟨rfl, by rintro ⟨⟩⟩)

/-- The first token of an operand tells which kind it is of. -/
lemma primary_eq (inner : Reader Expr) :
    Expr.primary inner =
      branch false [.number, .stringLiteral]
        (fun t => done (.literal (t.literal.getD .undefined)) id)
        (branch false [.identifier]
          (fun name =>
            branch true [.leftParen] (fun _ => callRest inner name) (done (.ref name) id))
          (branch true [.leftParen] (fun _ => groupRest inner)
            (branch true [.leftBracket] (fun _ => rangeRest inner) Expr.noExpression))) := by
  funext c
  simp only [Expr.primary, branch]
  cases c.accept? [.number, .stringLiteral] with
  | some p => rfl
  | none =>
    dsimp only
    cases c.accept? [.identifier] with
    | some p =>
      simp only [enter_false, ok_bind, callTail_eq]
      cases p.2.accept? [.leftParen] <;> rfl
    | none =>
      dsimp only
      cases c.accept? [.leftParen] with
      | some p => rfl
      | none =>
        dsimp only
        cases c.accept? [.leftBracket] <;> rfl

/-- A name and the rest of a call are an operand. -/
lemma primary_of_call {name t : Token} {depth depth' : Nat} {ts : List Token}
    (word : name.kind ∈ [.identifier]) (kind : t.kind ∈ [.leftParen])
    (room : depth + 1 ≤ nestingLimit) (h : callPhrases (depth + 1) ts depth') :
    Symbol.primary.phrases depth (name :: t :: ts) depth' := by
  obtain ⟨_, _, _, rfl, args, _, _, _, rfl, ⟨rfl, r, closing, rfl⟩, rfl, rfl⟩ := h
  have closing' : r.kind ∈ [.rightParen] := List.mem_singleton.mpr closing
  rcases args with ⟨rfl, rfl⟩ |
    ⟨_, _, _, rfl, ⟨rfl, first, rfl, room₁, known₁⟩, rfl, rest, rfl, room₂, known₂⟩
  · exact ⟨rfl, .emptyCall ⟨name, word⟩ ⟨t, kind⟩ ⟨r, closing'⟩, rfl, room, trivial⟩
  · refine ⟨rfl, .call ⟨name, word⟩ ⟨t, kind⟩ first rest ⟨r, closing'⟩, by simp, ?_, known₁, known₂⟩
    simp only [Derivation.demand]
    omega

/-- A parenthesis and the rest of a group are an operand. -/
lemma primary_of_group {t : Token} {depth depth' : Nat} {ts : List Token}
    (kind : t.kind ∈ [.leftParen]) (h : groupPhrases (depth + 1) ts depth') :
    Symbol.primary.phrases depth (t :: ts) depth' := by
  obtain ⟨_, _, _, rfl, ⟨rfl, e, rfl, room, known⟩, _, _, _, rfl, ⟨rfl, r, closing, rfl⟩, rfl,
    rfl⟩ := h
  refine ⟨rfl, .group ⟨t, kind⟩ e ⟨r, List.mem_singleton.mpr closing⟩, by simp, ?_, known⟩
  simp only [Derivation.demand]
  omega

/-- A bracket and the rest of a range are an operand. -/
lemma primary_of_range {t : Token} {depth depth' : Nat} {ts : List Token}
    (kind : t.kind ∈ [.leftBracket]) (h : rangePhrases (depth + 1) ts depth') :
    Symbol.primary.phrases depth (t :: ts) depth' := by
  obtain ⟨_, _, _, rfl, ⟨rfl, low, rfl, room₁, known₁⟩, _, _, _, rfl, ⟨rfl, colon, between, rfl⟩,
    _, _, _, rfl, ⟨rfl, high, rfl, room₂, known₂⟩, _, _, _, rfl, ⟨rfl, mode, rfl, -, known₃⟩,
    _, _, _, rfl, ⟨rfl, r, closing, rfl⟩, rfl, rfl⟩ := h
  refine ⟨rfl, .range ⟨t, kind⟩ low ⟨colon, List.mem_singleton.mpr between⟩ high mode
    ⟨r, List.mem_singleton.mpr closing⟩, by simp, ?_, known₁, known₂, known₃⟩
  simp only [Derivation.demand]
  omega

/-- A name, or a call if a parenthesis follows. -/
lemma foresees_name (h : Foresees size inner Symbol.logic.phrases i) (name : Token)
    (word : name.kind ∈ [.identifier]) :
    Foresees size
      (fun i => branch true [.leftParen] (fun _ => callRest (inner i) name) (done (.ref name) id))
      (fun d ts d' => Symbol.primary.phrases d (name :: ts) d') i := by
  have alone : ∀ d ≤ nestingLimit, Symbol.primary.phrases d [name] d := fun d room =>
    ⟨rfl, .name ⟨name, word⟩, rfl, room, trivial⟩
  refine .branch (fun _ => callPhrases) (by decide) (fun _ _ => foresees_call h name) ?_ ?_ ?_
    fun j => Nat.le_succ (size j)
  · refine (foresees_done _).mono ?_
    rintro d _ _ room ⟨rfl, rfl⟩
    exact alone _ room
  · exact fun depth room => ⟨[], depth, room, alone depth room⟩
  · exact fun t d ts d' kind room phrase => primary_of_call word kind room phrase

/-- An operand, in which the next level has one token less. -/
lemma foresees_primary (h : Foresees size' inner Symbol.logic.phrases i)
    (shift : ∀ j, size j ≤ size' j + 1) :
    Foresees size (fun i => Expr.primary (inner i)) Symbol.primary.phrases i := by
  simp only [primary_eq]
  refine .branch (fun _ => .nothing id) (by decide) (fun t _ => foresees_done _) ?_ live_primary ?_
    shift
  · refine .branch (fun name d ts d' => Symbol.primary.phrases d (name :: ts) d') (by decide)
      (fun name word => foresees_name h name word) ?_ live_primary ?_ shift
    · refine .branch (fun _ => groupPhrases) (by decide) (fun t _ => foresees_group h) ?_
        live_primary (fun t d ts d' kind _ phrase => primary_of_group kind phrase) shift
      exact .branch (fun _ => rangePhrases) (by decide) (fun t _ => foresees_range h)
        (foresees_noExpression live_primary) live_primary
        (fun t d ts d' kind _ phrase => primary_of_range kind phrase) shift
    · exact fun t d ts d' _ _ phrase => phrase
  · rintro t d _ _ kind room ⟨rfl, rfl⟩
    exact ⟨rfl, .literal ⟨t, kind⟩, rfl, room, trivial⟩

end Readers

/-- An expression with any bound on the brackets to come that is enough. -/
lemma foresees_expression (n : Nat) :
    Foresees id Expr.expression Symbol.logic.phrases n := by
  induction n with
  | zero => exact .of_size_eq_zero rfl
  | succ n ih =>
    have inner : Foresees (fun j => j - 1) (fun j => Expr.expression (j - 1)) Symbol.logic.phrases
        (n + 1) := ih.reindex (fun j => j - 1) fun _ => Nat.le_refl _
    have shift : ∀ j : Nat, id j ≤ j - 1 + 1 := by
      intro j
      rw [id]
      omega
    have operand := foresees_unaryChain (foresees_primary inner shift)
    have outer := foresees_logicChain (foresees_ladder operand levels List.suffix_rfl)
    -- a bound of zero allows no token, so it does not matter that there the reader is another one
    refine outer.congr fun j positive => ?_
    cases j with
    | zero => cases positive
    | succ j => rfl

/-- The text ends with the last token, and not before. -/
def EndsOnce (ts : List Token) : Prop :=
  ∃ inner eof, ts = inner ++ [eof] ∧ eof.kind = .endOfText ∧ ∀ t ∈ inner, t.kind ≠ .endOfText

/-- The tokens are those of an expression. -/
def Accepted (ts : List Token) : Prop := ∃ e, Expr.parse ts = .ok e

/-- The token at a place does not fit: the tokens before it begin an expression, and together with
it they begin none. -/
def Misfit (ts : List Token) (place : Nat) : Prop :=
  (∃ full, ts.take place <+: full ∧ EndsOnce full ∧ Accepted full) ∧
    ¬ ∃ full, ts.take (place + 1) <+: full ∧ Accepted full

/-- A phrase with an end is the tokens of an expression. -/
lemma exists_accepted {depth depth' : Nat} {ts : List Token}
    (h : Symbol.logic.phrases depth ts depth') :
    ∃ full, ts <+: full ∧ EndsOnce full ∧ Accepted full := by
  obtain ⟨-, d, rfl, room, known⟩ := h
  have inner : ∀ t ∈ d.yield, t.kind ≠ .endOfText := d.not_endOfText trivial
  refine ⟨d.yield ++ [⟨.endOfText, "", none, 0⟩], List.prefix_append _ _, ⟨_, _, rfl, rfl, inner⟩,
    d.tree, ?_⟩
  exact parse_eq_ok.mpr ⟨d, (text_append inner (by rintro t ⟨⟩; rfl)).symm, by omega, known, rfl⟩

/-- An expression has to be followed by the end of the text. -/
lemma parse_of_read {tokens rest : List Token} {x : Expr} {t : Token} {depth : Nat}
    (read : Expr.expression tokens.length ⟨tokens, 0⟩ = .ok (x, ⟨t :: rest, depth⟩)) :
    Expr.parse tokens =
      if t.kind = .endOfText then .ok x else .error ⟨t.column, .trailing t.lexeme⟩ := by
  unfold Expr.parse
  rw [read]
  rfl

/-- An error within the expression is the error of the text. -/
lemma parse_of_error {tokens : List Token} {e : SyntaxError}
    (read : Expr.expression tokens.length ⟨tokens, 0⟩ = .error e) :
    Expr.parse tokens = .error e := by
  unfold Expr.parse
  rw [read]
  rfl

/-- A list of tokens that is no expression has a token at fault. -/
lemma exists_fault {tokens : List Token} {e : SyntaxError} (ended : Ended tokens)
    (failed : Expr.parse tokens = .error e) :
    ∃ good t ahead, tokens = good ++ t :: ahead ∧ Blames e t ahead ∧
      Begins Symbol.logic.phrases 0 good ∧
      ∀ ahead', ∃ e', Expr.parse (good ++ t :: ahead') = .error e' := by
  have foresees := foresees_expression tokens.length
  cases read : Expr.expression tokens.length ⟨tokens, 0⟩ with
  | error e₁ =>
    cases failed.symm.trans (parse_of_error read)
    obtain ⟨good, t, ahead, split, blames, begins, again⟩ :=
      foresees.error (Nat.le_refl _) ended (Nat.zero_le _) read
    refine ⟨good, t, ahead, split, blames, begins, fun ahead' => ?_⟩
    obtain ⟨e', failed'⟩ := again (good ++ t :: ahead').length ahead' (Nat.le_refl _)
    exact ⟨e', parse_of_error failed'⟩
  | ok p =>
    obtain ⟨x, rest, depth⟩ := p
    obtain ⟨ended', room, good, split, phrase, again⟩ :=
      foresees.ok (Nat.le_refl _) ended (Nat.zero_le _) read
    obtain ⟨t, ahead, rfl⟩ := ended'.exists_cons
    rw [parse_of_read read] at failed
    split at failed
    · cases failed
    -- the reader has stopped early, at a token that continues no phrase
    · next other =>
      cases failed
      refine ⟨good, t, ahead, split, (if_neg (by rintro ⟨⟩)).mpr rfl,
        ⟨[], depth, room, by rwa [List.append_nil]⟩, fun ahead' => ?_⟩
      have read' := again (good ++ t :: ahead').length (t :: ahead') (Nat.le_refl _) rfl
      exact ⟨_, (parse_of_read read').trans (if_neg other)⟩

/-- The token after a beginning does not fit if nothing after it helps. -/
lemma misfit_append {good ahead : List Token} {t : Token}
    (begins : Begins Symbol.logic.phrases 0 good)
    (dead : ∀ ahead', ∃ e', Expr.parse (good ++ t :: ahead') = .error e') :
    Misfit (good ++ t :: ahead) good.length := by
  constructor
  · obtain ⟨more, depth, -, phrase⟩ := begins
    obtain ⟨full, pre, once, accepted⟩ := exists_accepted phrase
    refine ⟨full, ?_, once, accepted⟩
    rw [List.take_left]
    exact (List.prefix_append good more).trans pre
  · rintro ⟨full, ⟨ahead', rfl⟩, e, accepted⟩
    have shape : (good ++ t :: ahead).take (good.length + 1) ++ ahead' = good ++ t :: ahead' := by
      simp [List.take_length_add_append]
    obtain ⟨e', failed⟩ := dead ahead'
    rw [shape, failed] at accepted
    cases accepted

/-- An error stands at the first token that does not fit, or after it if the nesting is too deep. -/
theorem parse_error_points_at_misfit (tokens : List Token) (e : SyntaxError)
    (once : EndsOnce tokens) (failed : Expr.parse tokens = .error e) :
    ∃ j t, tokens[j]? = some t ∧ t.column = e.column ∧
      (e.cause.message ≠ "Expression nested too deeply" → Misfit tokens j) ∧
      (e.cause.message = "Expression nested too deeply" → 0 < j ∧ Misfit tokens (j - 1)) := by
  obtain ⟨inner, eof, rfl, last, -⟩ := once
  have ended : Ended (inner ++ [eof]) := ⟨eof, List.mem_append_right _ List.mem_cons_self, last⟩
  obtain ⟨good, t, ahead, split, blames, begins, dead⟩ := exists_fault ended failed
  rw [split]
  have misfit : Misfit (good ++ t :: ahead) good.length := misfit_append begins dead
  by_cases deep : e.cause = .tooDeep
  · obtain ⟨u, next, column⟩ := (if_pos deep).mp blames
    refine ⟨good.length + 1, u, ?_, column.symm, ?_, fun _ => ⟨Nat.succ_pos _, misfit⟩⟩
    · cases ahead with
      | nil => cases next
      | cons v ahead =>
        cases next
        simp
    · exact fun other => absurd (SyntaxError.Cause.message_eq_tooDeep.mpr deep) other
  · have column : e.column = t.column := (if_neg deep).mp blames
    refine ⟨good.length, t, by simp, column.symm, fun _ => misfit, ?_⟩
    exact fun h => absurd (SyntaxError.Cause.message_eq_tooDeep.mp h) deep

/-- Whether some tokens are refused with an error can be tried. -/
instance (tokens : List Token) (e : SyntaxError) : Decidable (Expr.parse tokens = .error e) :=
  match Expr.parse tokens with
  | .error e' => decidable_of_iff (e' = e) ⟨congrArg _, Except.error.inj⟩
  | .ok _ => isFalse nofun

/-- A token of numbered tokens has its place as its column. -/
lemma column_eq_of_numbered {tokens : List Token} {j : Nat} {t : Token}
    (numbered : tokens.map Token.column = List.range' 1 tokens.length)
    (place : tokens[j]? = some t) : t.column = j + 1 := by
  obtain ⟨bound, -⟩ := List.getElem?_eq_some_iff.mp place
  have column : (tokens.map Token.column)[j]? = some t.column := by
    rw [List.getElem?_map, place]
    rfl
  rw [numbered, List.getElem?_range' bound] at column
  have shown := Option.some.inj column
  omega

/-- `f(a,)`. -/
def stray : List Token :=
  [⟨.identifier, "f", none, 1⟩, ⟨.leftParen, "(", none, 2⟩, ⟨.identifier, "a", none, 3⟩,
    ⟨.comma, ",", none, 4⟩, ⟨.rightParen, ")", none, 5⟩, ⟨.endOfText, "", none, 6⟩]

/-- More opening parentheses than can be nested. -/
def crowded : List Token :=
  (List.range 65).map (fun k => ⟨.leftParen, "(", none, k + 1⟩) ++ [⟨.endOfText, "", none, 66⟩]

/-- After the comma an argument is missing. Of the parentheses only the last one does not fit, and
the error is found after it. -/
theorem parse_error_points_at_stray_and_crowded :
    EndsOnce stray ∧ Expr.parse stray = .error ⟨5, .unexpected ")"⟩ ∧ Misfit stray 4 ∧
    EndsOnce crowded ∧ Expr.parse crowded = .error ⟨66, .tooDeep⟩ ∧ Misfit crowded 64 := by
  have once : EndsOnce stray := ⟨stray.dropLast, _, rfl, rfl, by decide⟩
  have failed : Expr.parse stray = .error ⟨5, .unexpected ")"⟩ := by decide +kernel
  have once' : EndsOnce crowded := ⟨_, _, rfl, rfl, by decide +kernel⟩
  have failed' : Expr.parse crowded = .error ⟨66, .tooDeep⟩ := by decide +kernel
  obtain ⟨j, t, place, column, shallow, -⟩ := parse_error_points_at_misfit stray _ once failed
  obtain ⟨j', t', place', column', -, deep⟩ :=
    parse_error_points_at_misfit crowded _ once' failed'
  have fifth : j = 4 := by
    have numbered := column_eq_of_numbered (by decide) place
    exact Nat.succ.inj (numbered.symm.trans column)
  have last : j' = 65 := by
    have numbered := column_eq_of_numbered (by decide +kernel) place'
    exact Nat.succ.inj (numbered.symm.trans column')
  subst fifth last
  refine ⟨once, failed, shallow fun same => ?_, once', failed', (deep rfl).2⟩
  cases SyntaxError.Cause.message_eq_tooDeep.mp same

end Grammar

end Linework
