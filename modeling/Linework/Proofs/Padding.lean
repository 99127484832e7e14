import Linework.Proofs.Tiling
import Linework.Proofs.Columns

/-!
# Blanks around an expression

Blanks before and after an expression change the columns of its tokens and nothing else. So the
expression has the same tree up to columns with them, or none with and without them
(`Formula.shape?_padded`), and its value is the same.
-/

namespace Linework

namespace Token

open Text

/-! ### Blanks behind a lexeme -/

section

variable {right : List Char}

/-- Blanks at the end make no operator longer. -/
lemma operator?_append_blank (blank : Blank right) (c : Char) (cs : List Char) :
    operator? (c :: (cs ++ right)) = operator? (c :: cs) := by
  rw [operator?_cons, operator?_cons]
  cases cs with
  | cons d cs => rfl
  | nil =>
    cases right with
    | nil => rfl
    | cons d right =>
      have none : double? c d = none := double?_before_blank (blank d List.mem_cons_self)
      simp [operatorAt, none]

/-- Blanks at the end do not change where operands end. -/
lemma endsOperand_append_blank (blank : Blank right) (c : Char) (cs : List Char) :
    endsOperand (c :: (cs ++ right)) = endsOperand (c :: cs) := by
  rw [endsOperand, endsOperand, operator?_append_blank blank, List.head?_cons, List.head?_cons]

/-- Blanks at the end of a text belong to its last operand or to nothing. -/
lemma operandRun_append_blank (blank : Blank right) (cs : List Char) :
    operandRun (cs ++ right) = operandRun cs ∨
      operandRun (cs ++ right) = operandRun cs ++ right := by
  induction cs with
  | nil =>
    have run := unbroken_blank blank []
    rw [Unbroken, List.append_nil] at run
    exact .inr (run.trans (List.append_nil right))
  | cons c cs ih =>
    rw [List.cons_append, operandRun, operandRun, endsOperand_append_blank blank]
    split
    · exact .inl rfl
    · exact ih.imp (congrArg (c :: ·)) (congrArg (c :: ·))

/-- Blanks at the end are no part of an operand. -/
lemma trimEnd_operandRun_append_blank (blank : Blank right) (c : Char) (cs : List Char) :
    trimEnd (c :: operandRun (cs ++ right)) = trimEnd (c :: operandRun cs) := by
  obtain same | longer := operandRun_append_blank blank cs
  · rw [same]
  · rw [longer, ← List.cons_append, trimEnd_append_blank blank]

/-- Blanks are no text. -/
lemma readString?_blank (blank : Blank right) : readString? right = none := by
  induction right with
  | nil => rfl
  | cons c right ih =>
    obtain ⟨first, blank⟩ := List.forall_mem_cons.mp blank
    have no_backslash : c ≠ '\\' := by
      rintro rfl
      exact absurd first (by decide)
    rw [readString?, ih blank]
    · rfl
    · exact ne_quote_of_blank first
    · exact fun cs backslash => absurd backslash no_backslash

/-- Blanks at the end of a text close no string. -/
lemma readString?_append_blank (blank : Blank right) (cs : List Char) :
    readString? (cs ++ right) = readString? cs := by
  fun_induction readString? cs with
  | case1 => exact readString?_blank blank
  | case2 => rfl
  | case3 cs ih => rw [List.cons_append, List.cons_append, readString?, ih]
  | case4 c cs other itself ih =>
    rw [List.cons_append, readString?, ih]
    · exact other
    · rintro rest rfl next
      cases cs with
      | nil =>
        rw [List.nil_append] at next
        exact ne_quote_of_blank (blank '"' (next ▸ List.mem_cons_self)) rfl
      | cons d cs =>
        obtain ⟨rfl, -⟩ := List.cons.inj next
        exact itself cs rfl rfl

/-- Blanks at the end do not change the lexemes before them. -/
lemma readLexeme_append_blank (blank : Blank right) (c : Char) (cs : List Char) :
    readLexeme c (cs ++ right) = readLexeme c cs := by
  rw [readLexeme, readLexeme, operator?_append_blank blank, readString?_append_blank blank,
    trimEnd_operandRun_append_blank blank]

end

/-! ### Columns -/

/-- How far a token moves if `j` characters are put before the text and `n` behind it. -/
def shift (j n : Nat) (t : Token) : Nat := if t.kind = .endOfText then j + n else j

/-- The tokens of a text are the same with blanks around it, in other places. -/
lemma scanFrom_padded {right : List Char} (blank : Blank right) (j k skip : Nat) (cs : List Char)
    (short : skip ≤ cs.length) :
    (scanFrom (k + j) skip (cs ++ right)).toOption = (scanFrom k skip cs).toOption.map
      (List.map (moved fun t => t.column + shift j right.length t)) := by
  induction cs generalizing k skip with
  | nil =>
    cases Nat.le_zero.mp short
    -- only the end of the text is left, and it moves behind the blanks on the right too
    have scanned := scanFrom_blank blank (k + j) []
    rw [List.append_nil] at scanned
    rw [List.nil_append, scanned, scanFrom, scanFrom, Nat.add_assoc]
    rfl
  | cons c cs ih =>
    cases skip with
    | succ skip =>
      rw [List.cons_append, scanFrom, scanFrom, Nat.add_right_comm]
      exact ih (k + 1) skip (Nat.le_of_succ_le_succ short)
    | zero =>
      rw [List.cons_append, scanFrom, scanFrom, readLexeme_append_blank blank]
      cases read : readLexeme c cs with
      | blank =>
        dsimp only
        rw [Nat.add_right_comm]
        exact ih (k + 1) 0 (Nat.zero_le _)
      | fault cause => rfl
      | token kind length literal =>
        obtain ⟨word, rest, split, rfl, reads⟩ := exists_reads read
        have within : word.length ≤ (c :: cs).length := by
          rw [split, List.length_append]
          exact Nat.le_add_right _ _
        have lexeme : (c :: (cs ++ right)).take word.length = (c :: cs).take word.length := by
          rw [← List.cons_append, List.take_append_of_le_length within]
        have more := ih (k + 1) (word.length - 1) (by simp at within; omega)
        rw [Nat.add_right_comm] at more
        dsimp only
        rw [lexeme]
        -- both scans fail, or they find the same tokens but for the columns
        generalize scanFrom (k + j + 1) (word.length - 1) (cs ++ right) = o at more ⊢
        cases scanned : scanFrom (k + 1) (word.length - 1) cs with
        | error e =>
          rw [scanned] at more
          cases o with
          | error => rfl
          | ok => cases more
        | ok ts =>
          rw [scanned] at more
          cases o with
          | error => cases more
          | ok ts' =>
            obtain rfl := Option.some.inj more
            have column : shift j right.length
                ⟨kind, String.ofList ((c :: cs).take word.length), literal, k⟩ = j :=
              if_neg reads.kind_ne
            simp only [bind, Except.bind, pure, Except.pure, Except.toOption, Option.map_some,
              List.map_cons, moved, column]

/-- Blanks around a text move its tokens. -/
lemma scan_padded {left right : List Char} (blank : Blank left) (blank' : Blank right)
    (cs : List Char) : (scan (left ++ cs ++ right)).toOption = (scan cs).toOption.map
      (List.map (moved fun t => t.column + shift left.length right.length t)) := by
  rw [scan, List.append_assoc, scanFrom_blank blank]
  exact scanFrom_padded blank' left.length 1 0 cs (Nat.zero_le _)

/-- Tokens that have been moved are moved back. -/
lemma moved_back (g : Token → Nat) (same : ∀ t k, g { t with column := k } = g t)
    (ts : List Token) :
    (ts.map (moved fun t => t.column + g t)).map (moved fun t => t.column - g t) = ts := by
  rw [List.map_map]
  refine (List.map_congr_left fun t _ => ?_).trans (List.map_id ts)
  simp [moved, same]

end Token

/-! ### Trees -/

/-- Columns that are moved in a way that can be undone change nothing of a tree but columns. -/
lemma Expr.parse_padded (j n : Nat) (ts : List Token) :
    (parse (ts.map (Token.moved fun t => t.column + Token.shift j n t))).toOption.map placeless =
      (parse ts).toOption.map placeless := by
  cases read : parse ts with
  | ok e =>
    obtain ⟨e', read', same⟩ := Grammar.parse_moved (fun t => t.column + Token.shift j n t) read
    rw [read']
    exact congrArg some same
  | error error =>
    cases read' : parse (ts.map (Token.moved fun t => t.column + Token.shift j n t)) with
    | error => rfl
    | ok e =>
      obtain ⟨e', back, -⟩ := Grammar.parse_moved (fun t => t.column - Token.shift j n t) read'
      rw [Token.moved_back (Token.shift j n) (fun _ _ => rfl), read] at back
      cases back

namespace Formula

/-- The tree of a formula up to columns, if it has one. -/
def shape? (f : Formula) : Option Expr := f.compiled.toOption.map Expr.placeless

/-- The shape of a formula is that of its tree. -/
lemma shape?_compile (text : List Char) : (compile text).shape? =
    (Token.scan text).toOption.bind fun ts => (Expr.parse ts).toOption.map Expr.placeless := by
  rw [shape?, compile]
  cases Token.scan text <;> rfl

/-- Blanks around an expression do not matter. -/
lemma shape?_padded {left right : List Char} (blank : Blank left) (blank' : Blank right)
    (cs : List Char) : (compile (left ++ cs ++ right)).shape? = (compile cs).shape? := by
  rw [shape?_compile, shape?_compile, Token.scan_padded blank blank', Option.bind_map]
  congr 1
  funext ts
  exact Expr.parse_padded left.length right.length ts

variable {f : Formula} {invoke : Invoke}

/-- A formula has the value of its shape. -/
lemma eval_of_shape? {e : Expr} (h : f.shape? = some e) : f.eval invoke = e.eval invoke := by
  obtain ⟨source, compiled⟩ := f
  cases compiled with
  | error error => cases h
  | ok e' =>
    obtain rfl : e'.placeless = e := Option.some.inj h
    exact e'.eval_placeless.symm

/-- A formula without a shape is reported and undefined. -/
lemma eval_of_shape?_none (h : f.shape? = none) : ∃ cause,
    f.eval invoke = Run.diagnose cause >>= fun _ => pure .undefined := by
  obtain ⟨source, compiled⟩ := f
  cases compiled with
  | error error => exact ⟨_, rfl⟩
  | ok e => cases h

end Formula

end Linework
