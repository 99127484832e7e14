import Linework.Proofs.ErrorColumn

/-!
# What readers do to their cursor

Whatever is read, the cursor ends behind where it began, no end of the text has been passed, and the
nesting is the one that it was. `Moves` says this of a reader, with the least number of tokens that
it passes and how deep it ends. It is kept when readers are put together, so there is one lemma for
each way of doing so and one for each reader. Only within a level does the nesting grow from one
operand to the next, and the level itself goes back to where it began.
-/

namespace Linework.Grammar
open Linework.Expr (Cursor Reader levels)

/-- At least so many tokens lie between two cursors, and none of them ends the text. -/
def Crosses (least : Nat) (c c' : Cursor) : Prop :=
  ∃ passed, c.rest = passed ++ c'.rest ∧ least ≤ passed.length ∧
    ∀ t ∈ passed, t.kind ≠ .endOfText

namespace Crosses

variable {m n : Nat} {c d e : Cursor}

/-- A cursor with the same tokens ahead has crossed none. -/
lemma of_rest_eq (same : c.rest = d.rest) : Crosses 0 c d :=
  ⟨[], same, Nat.zero_le _, List.forall_mem_nil _⟩

/-- A cursor one token further has crossed it. -/
lemma of_rest_eq_cons {t : Token} (next : c.rest = t :: d.rest) (inner : t.kind ≠ .endOfText) :
    Crosses 1 c d :=
  ⟨[t], next, Nat.le_refl _, List.forall_mem_singleton.mpr inner⟩

/-- What crosses more tokens crosses fewer. -/
lemma mono (le : m ≤ n) (h : Crosses n c d) : Crosses m c d := by
  obtain ⟨passed, split, least, inner⟩ := h
  exact ⟨passed, split, Nat.le_trans le least, inner⟩

/-- The tokens crossed add up. -/
lemma trans (h : Crosses m c d) (h' : Crosses n d e) : Crosses (m + n) c e := by
  obtain ⟨passed, split, least, inner⟩ := h
  obtain ⟨passed', split', least', inner'⟩ := h'
  refine ⟨passed ++ passed', ?_, ?_, List.forall_mem_append.mpr ⟨inner, inner'⟩⟩
  · rw [split, split', List.append_assoc]
  · rw [List.length_append]
    exact Nat.add_le_add least least'

/-- The tokens crossed are no longer ahead. -/
lemma length_le (h : Crosses n c d) : d.rest.length + n ≤ c.rest.length := by
  obtain ⟨passed, split, least, -⟩ := h
  rw [split, List.length_append]
  omega

end Crosses

/-- The nesting is the one that it was. -/
def Stays (depth depth' : Nat) : Prop := depth' = depth

/-- The nesting is one less. -/
def Surfaces (depth depth' : Nat) : Prop := depth' = depth - 1

/-- Whenever something is read, at least so many tokens are passed and none that ends the text, and
the nestings before and after are as said. -/
def Moves {α : Type} (least : Nat) (lands : Nat → Nat → Prop) (read : Reader α) : Prop :=
  ∀ c x c', read c = .ok (x, c') → Crosses least c c' ∧ lands c.depth c'.depth

namespace Moves

variable {α β : Type} {m n : Nat} {D E F : Nat → Nat → Prop} {read : Reader α}

/-- What moves on by more tokens moves on by fewer. -/
lemma mono (le : m ≤ n) (h : Moves n D read) : Moves m D read := by
  intro c x c' done
  obtain ⟨crosses, lands⟩ := h c x c' done
  exact ⟨crosses.mono le, lands⟩

/-- Reading nothing moves nowhere. -/
lemma done (x : α) : Moves 0 Stays (done x id) := by
  rintro c _ _ ⟨⟩
  exact ⟨.of_rest_eq rfl, rfl⟩

/-- Reading nothing moves nowhere, one level further out. -/
lemma surface (x : α) : Moves 0 Surfaces (Grammar.done x (· - 1)) := by
  rintro c _ _ ⟨⟩
  exact ⟨.of_rest_eq rfl, rfl⟩

/-- An expected token is crossed. -/
lemma expect (kind : TokenKind) (cause : SyntaxError.Cause) :
    Moves 1 Stays (fun c => c.expect kind cause) := by
  intro c t c' read
  simp only [Cursor.expect] at read
  split at read
  · rename_i accepted
    cases read
    obtain ⟨tokens, depth, inner, -⟩ := Cursor.accept?_eq_some.mp accepted
    exact ⟨.of_rest_eq_cons tokens inner, depth⟩
  · cases read

/-- Two readers move on one after the other. -/
lemma andThen {next : α → Reader β} (h : Moves m Stays read) (h' : ∀ x, Moves n E (next x)) :
    Moves (m + n) E (andThen read next) := by
  intro c y c' both
  obtain ⟨⟨x, d⟩, first, second⟩ := bind_eq_ok.mp both
  obtain ⟨crosses, stays⟩ := h c x d first
  obtain ⟨crosses', lands⟩ := h' x d y c' second
  rw [Stays] at stays
  exact ⟨crosses.trans crosses', stays ▸ lands⟩

/-- A level that is entered first counts as passed through, from the nesting there was before. -/
lemma enter (nests : Bool) (h : Moves n D read)
    (comp : ∀ i k, D (i + nests.toNat) k → F i k) :
    Moves n F (fun c => enter nests c >>= read) := by
  intro c x c' both
  obtain ⟨d, entered, read⟩ := bind_eq_ok.mp both
  obtain rfl : d = ⟨c.rest, c.depth + nests.toNat⟩ := by
    cases nests with
    | false => exact (Except.ok.inj entered).symm
    | true => exact (deepen_eq_ok.mp entered).2
  obtain ⟨crosses, lands⟩ := h _ x c' read
  exact ⟨crosses, comp _ _ lands⟩

/-- The token that decides is crossed on one side only. -/
lemma branch {nests : Bool} {kinds : List TokenKind} {yes : Token → Reader α} {no : Reader α}
    (h : ∀ t, Moves m D (yes t)) (h' : Moves n F no)
    (comp : ∀ i k, D (i + nests.toNat) k → F i k) (le : n ≤ m + 1) :
    Moves n F (branch nests kinds yes no) := by
  intro c x c' both
  unfold Grammar.branch at both
  split at both
  · rename_i t d accepted
    obtain ⟨tokens, depth, inner, -⟩ := Cursor.accept?_eq_some.mp accepted
    obtain ⟨crosses, lands⟩ := (h t).enter nests comp d x c' both
    have passed := (Crosses.of_rest_eq_cons tokens inner).trans crosses
    exact ⟨passed.mono (by omega), depth ▸ lands⟩
  · exact h' c x c' both

/-- A token that is only looked at is not crossed. -/
lemma ahead {kinds : List TokenKind} {yes no : Reader α} (h : Moves n D yes) (h' : Moves n D no) :
    Moves n D (ahead kinds yes no) := by
  intro c x c' both
  unfold Grammar.ahead at both
  split at both
  · exact h c x c' both
  · exact h' c x c' both

/-- A reader that puts the depth back stays at its depth. -/
lemma restoring (h : Moves n D read) : Moves n Stays (restoring read) := by
  intro c x c' both
  obtain ⟨⟨y, d⟩, first, last⟩ := bind_eq_ok.mp both
  obtain ⟨⟨passed, split⟩, -⟩ := h c y d first
  cases last
  exact ⟨⟨passed, split⟩, rfl⟩

end Moves

section Readers

variable {op : TokenKind} {operand inner : Reader Expr}

/-- Further operations leave the cursor as deep as the last operand was read. -/
lemma moves_chain (h : Moves 1 Stays operand) (bound : List Token) :
    ∀ left, Moves 0 (fun _ _ => True) (Expr.chain op operand bound left) := by
  induction bound with
  | nil =>
    rintro left c _ _ ⟨⟩
    exact ⟨.of_rest_eq rfl, trivial⟩
  | cons t bound ih =>
    intro left
    rw [chain_cons]
    refine .branch (fun t => h.andThen (fun right => ih _)) ?_ (fun _ _ => id)
      (Nat.zero_le _)
    exact fun c x c' read => ⟨(Moves.done left c x c' read).1, trivial⟩

/-- One level of operators. -/
lemma moves_level (h : Moves 1 Stays operand) : Moves 1 Stays (Expr.level op operand) := by
  have further : ∀ left, Moves 0 (fun _ _ => True) fun c => Expr.chain op operand c.rest left c :=
    fun left c => moves_chain h c.rest left c
  rw [level_eq]
  exact (h.andThen further).restoring

/-- All levels of operators. -/
lemma moves_ladder (h : Moves 1 Stays operand) (ops : List TokenKind) :
    Moves 1 Stays (Expr.ladder ops operand) := by
  induction ops with
  | nil => exact h
  | cons op ops ih => exact moves_level ih

/-- The conditions of a chain after the first one, which may be none. -/
lemma moves_connectives (h : Moves 1 Stays operand) (bound : List Token) :
    Moves 0 Stays (Expr.connectives operand bound) := by
  induction bound with
  | nil => exact .done []
  | cons t bound ih =>
    rw [connectives_cons]
    exact .branch (fun t => h.andThen fun e => ih.andThen fun rest => .done _) (.done [])
      (fun _ _ => id) (Nat.zero_le _)

/-- A chain of conditions. -/
lemma moves_logicChain (h : Moves 1 Stays operand) : Moves 1 Stays (Expr.logicChain operand) := by
  have further : Moves 0 Stays fun c => Expr.connectives operand c.rest c :=
    fun c => moves_connectives h c.rest c
  rw [logicChain_eq]
  exact h.andThen fun first => further.andThen fun rest => .done _

/-- Signs and their operand, by induction on the bound. -/
lemma moves_signs (h : Moves 1 Stays operand) (bound : List Token) :
    Moves 1 Stays (Expr.signs operand bound) := by
  induction bound with
  | nil => exact h
  | cons t bound ih =>
    rw [signs_cons]
    exact .branch (fun t => ih.andThen (fun right => .surface _)) h (fun _ _ => id)
      (by decide)

/-- Signs and their operand. -/
lemma moves_unaryChain (h : Moves 1 Stays operand) : Moves 1 Stays (Expr.unaryChain operand) :=
  fun c => moves_signs h c.rest c

/-- The arguments of a call, by induction on the bound. -/
lemma moves_arguments (h : Moves 1 Stays inner) (bound : List Token) :
    Moves 1 Stays (Expr.arguments inner bound) := by
  induction bound with
  | nil => exact h.andThen (fun e => .done [e])
  | cons t bound ih =>
    rw [arguments_cons]
    refine h.andThen (n := 0) (fun e => ?_)
    exact .branch (fun _ => ih.andThen (fun es => .done _)) (.done [e]) (fun _ _ => id)
      (Nat.zero_le _)

/-- What is made of the word after the second colon of a range. -/
def flagged (flag : Token) : Reader RangeMode := fun c =>
  if flag.lexeme = "i" then .ok (.integer, c)
  else if flag.lexeme = "d" then .ok (.real, c)
  else .error ⟨flag.column, .unknownMode flag.lexeme⟩

/-- The name of a mode is an identifier that is looked up. -/
lemma readFlag_eq :
    readFlag = andThen (fun c => c.expect .identifier .missingMode) flagged := rfl

/-- The mode of a range, which may be missing. -/
lemma moves_rangeMode : Moves 0 Stays Expr.rangeMode := by
  have known : ∀ flag, Moves 0 Stays (flagged flag) := by
    intro flag c mode c' read
    unfold flagged at read
    split at read
    · exact Moves.done _ _ _ _ read
    · split at read
      · exact Moves.done _ _ _ _ read
      · cases read
  rw [rangeMode_eq, readFlag_eq]
  exact .branch (fun _ => (Moves.expect _ _).andThen known) (.done _) (fun _ _ => id)
    (Nat.zero_le _)

/-- A closing bracket ends the nesting. -/
lemma moves_closing {α : Type} (kind : TokenKind) (cause : SyntaxError.Cause) (x : α) :
    Moves 1 Surfaces (andThen (fun c => c.expect kind cause) fun _ => done x (· - 1)) :=
  (Moves.expect kind cause).andThen fun _ => .surface x

/-- All arguments of a call, which may be none. -/
lemma moves_argumentList (h : Moves 1 Stays inner) :
    Moves 0 Stays (ahead [.rightParen] (done [] id) fun c => Expr.arguments inner c.rest c) := by
  have some : Moves 1 Stays fun c => Expr.arguments inner c.rest c :=
    fun c => moves_arguments h c.rest c
  exact .ahead (.done []) (some.mono (Nat.zero_le 1))

/-- A call after its parenthesis. -/
lemma moves_callRest (h : Moves 1 Stays inner) (callee : Token) :
    Moves 1 Surfaces (callRest inner callee) :=
  (moves_argumentList h).andThen fun _ => moves_closing _ _ _

/-- A group after its parenthesis. -/
lemma moves_groupRest (h : Moves 1 Stays inner) : Moves 1 Surfaces (groupRest inner) := by
  have both : Moves 2 Surfaces (groupRest inner) := h.andThen fun e => moves_closing _ _ _
  exact both.mono (by decide)

/-- A range after its bracket. -/
lemma moves_rangeRest (h : Moves 1 Stays inner) : Moves 1 Surfaces (rangeRest inner) := by
  have all : Moves 4 Surfaces (rangeRest inner) :=
    h.andThen fun low => (Moves.expect _ _).andThen fun _ => h.andThen fun high =>
      moves_rangeMode.andThen fun mode => moves_closing _ _ _
  exact all.mono (by decide)

/-- Nothing is read where no expression begins. -/
lemma moves_noExpression : Moves 1 Stays Expr.noExpression := by
  intro c x c' read
  unfold Expr.noExpression at read
  split at read <;> cases read

/-- A call after its name. -/
lemma moves_callTail (h : Moves 1 Stays inner) (callee : Token) :
    Moves 1 Stays (Expr.callTail inner callee) := by
  intro c x c' read
  rw [callTail_eq] at read
  exact (moves_callRest h callee).enter true (fun _ _ => id) c x c' read

/-- A range, back at its depth. -/
lemma moves_rangeTail (h : Moves 1 Stays inner) : Moves 1 Stays (Expr.rangeTail inner) :=
  (moves_rangeRest h).enter true (fun _ _ => id)

/-- An operand. -/
lemma moves_primary (h : Moves 1 Stays inner) : Moves 1 Stays (Expr.primary inner) := by
  rw [primary_eq]
  refine .branch (fun t => .done _) ?_ (fun _ _ => id) (by decide)
  refine .branch (m := 0) (fun name => ?_) ?_ (fun _ _ => id) (by decide)
  · exact .branch (fun _ => moves_callRest h name) (.done _) (fun _ _ => id) (by decide)
  · refine .branch (fun _ => moves_groupRest h) ?_ (fun _ _ => id) (by decide)
    exact .branch (fun _ => moves_rangeRest h) moves_noExpression (fun _ _ => id) (by decide)

end Readers

/-- An expression with any bound on the brackets to come. -/
lemma moves_expression (n : Nat) : Moves 1 Stays (Expr.expression n) := by
  induction n with
  | zero => exact moves_noExpression
  | succ n ih =>
    have operand := moves_unaryChain (moves_primary ih)
    exact moves_logicChain (moves_ladder operand levels)

end Linework.Grammar
