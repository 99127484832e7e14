import Linework.Proofs.Legibility
import Linework.Proofs.NumberTexts
import Linework.Expr.Print

/-!
# Printed forms can be read in one way only

The first character of a printed form, with the word behind a parenthesis, tells what was printed
(`head_print`). From there a form can be cut into those of its parts: it determines a legible tree
up to columns, and where it ends (`print_append_inj`). So compiled texts have the same printed form
exactly if their trees are the same up to columns (`print_eq_iff_placeless_eq`).
-/

namespace Linework

/-- A word ends at the first delimiter. -/
lemma eq_of_delimited {c : Char} {word word' rest rest' : List Char} (inner : c ∉ word)
    (inner' : c ∉ word') (same : word ++ c :: rest = word' ++ c :: rest') :
    word = word' ∧ rest = rest' := by
  obtain ⟨words, rests⟩ := word_append_inj (p := fun d => d ≠ c)
    (fun d mem => decide_eq_true (ne_of_mem_of_not_mem mem inner))
    (fun d mem => decide_eq_true (ne_of_mem_of_not_mem mem inner')) (by simp) (by simp) same
  exact ⟨words, (List.cons.inj rests).2⟩

namespace Expr

/-- The characters that can follow a printed expression. None of them stands in a name or a
number. -/
def isStop (c : Char) : Bool := c = ' ' || c = ')' || c = ':' || c = ']'

/-- The characters at which names and numbers stop. -/
lemma eq_of_isStop {c : Char} (stop : isStop c = true) : c = ' ' ∨ c = ')' ∨ c = ':' ∨ c = ']' := by
  simpa [isStop, or_assoc] using stop

/-- What can follow a printed expression. -/
def Stopped (rest : List Char) : Prop := ∀ c ∈ rest.head?, isStop c = true

/-- A text that begins with a stop. -/
lemma stopped_cons {c : Char} (stop : isStop c = true) (rest : List Char) :
    Stopped (c :: rest) := by
  rintro _ ⟨⟩
  exact stop

/-- A text without characters. -/
lemma stopped_nil : Stopped [] := by
  rintro _ ⟨⟩

/-- A word without stops ends where a stop follows. -/
lemma eq_of_stopped {word word' rest rest' : List Char}
    (chars : ∀ c ∈ word, isStop c = false) (chars' : ∀ c ∈ word', isStop c = false)
    (stopped : Stopped rest) (stopped' : Stopped rest')
    (same : word ++ rest = word' ++ rest') : word = word' ∧ rest = rest' := by
  refine word_append_inj (p := fun c => !isStop c) ?_ ?_ ?_ ?_ same
  · simpa using chars
  · simpa using chars'
  · simpa [Stopped] using stopped
  · simpa [Stopped] using stopped'

/-! ### The beginning of a printed form -/

/-- What begins a printed expression: a value, a name, a range, or a parenthesis and a word. -/
inductive Head where
  | literal
  | name
  | range
  | group
  | call
  | logic
  | operator (word : List Char)

/-- What a word after a parenthesis begins. -/
def Head.ofWord (word : List Char) : Head :=
  if word = "group".toList then .group
  else if word = "call".toList then .call
  else if word = "logic".toList then .logic
  else .operator word

/-- What some characters begin. -/
def Head.of : List Char → Head
  | [] => .name
  | c :: cs =>
    if c = '(' then .ofWord (cs.takeWhile (· ≠ ' '))
    else if c = '[' then .range
    else if c = '"' || c = '-' || c.isDigit then .literal
    else .name

/-- How the printed form of an expression begins. -/
def head : Expr → Head
  | .literal _ => .literal
  | .ref _ => .name
  | .group _ => .group
  | .unary op _ => .operator op.lexeme.toList
  | .binary _ op _ => .operator op.lexeme.toList
  | .call _ _ => .call
  | .range _ _ _ => .range
  | .logic _ _ => .logic

/-- A parenthesis around a word and what follows it. -/
def enclosed (word body : List Char) : List Char := '(' :: (word ++ ' ' :: (body ++ [')']))

/-- A text in parentheses begins with its word. -/
lemma enclosed_append (word body rest : List Char) :
    enclosed word body ++ rest = '(' :: (word ++ ' ' :: (body ++ ')' :: rest)) := by
  simp [enclosed]

/-- The word in parentheses tells what follows. -/
lemma Head.of_enclosed {word : List Char} (noBlank : ' ' ∉ word) (body rest : List Char) :
    Head.of (enclosed word body ++ rest) = .ofWord word := by
  have chars : ∀ c ∈ word, decide (c ≠ ' ') = true := by
    intro c mem
    exact decide_eq_true (ne_of_mem_of_not_mem mem noBlank)
  rw [enclosed_append, Head.of, if_pos rfl, (takeWhile_word chars (by simp)).1]

/-- A sign in parentheses is an operator. -/
lemma Head.ofWord_sign {t : Token} (sign : t.IsSign) :
    Head.ofWord t.lexeme.toList = .operator t.lexeme.toList := by
  have other {word : String} (long : 2 < word.toList.length) : t.lexeme.toList ≠ word.toList := by
    intro same
    have short := sign.short.2
    rw [same] at short
    omega
  rw [Head.ofWord, if_neg (other (by decide)), if_neg (other (by decide)),
    if_neg (other (by decide))]

/-- Texts in parentheses with one word have the same body. -/
lemma enclosed_append_inj {word body body' rest rest' : List Char}
    (same : enclosed word body ++ rest = enclosed word body' ++ rest') :
    body ++ ')' :: rest = body' ++ ')' :: rest' := by
  rw [enclosed_append, enclosed_append] at same
  exact (List.cons.inj (List.append_cancel_left (List.cons.inj same).2)).2

attribute [local simp] print printArguments printRest

/-- How a group is printed. -/
lemma toList_print_group (inner : Expr) :
    (group inner).print.toList = enclosed "group".toList inner.print.toList := by
  simp [enclosed]

/-- How a signed operand is printed. -/
lemma toList_print_unary (op : Token) (right : Expr) :
    (unary op right).print.toList = enclosed op.lexeme.toList right.print.toList := by
  simp [enclosed]

/-- How an operator with its operands is printed. -/
lemma toList_print_binary (left : Expr) (op : Token) (right : Expr) :
    (binary left op right).print.toList =
      enclosed op.lexeme.toList (left.print.toList ++ ' ' :: right.print.toList) := by
  simp [enclosed]

/-- How a call is printed. -/
lemma toList_print_call (callee : Token) (arguments : List Expr) :
    (call callee arguments).print.toList =
      enclosed "call".toList (callee.lexeme.toList ++ (printArguments arguments).toList) := by
  simp [enclosed]

/-- How a chain of conditions is printed. -/
lemma toList_print_logic (first : Expr) (rest : List (Token × Expr)) :
    (logic first rest).print.toList =
      enclosed "logic".toList (first.print.toList ++ (printRest rest).toList) := by
  simp [enclosed]

/-- How a range is printed. -/
lemma toList_print_range_append (low high : Expr) (mode : RangeMode) (rest : List Char) :
    (range low high mode).print.toList ++ rest =
      '[' :: (low.print.toList ++
        ':' :: (high.print.toList ++ (mode.suffix.toList ++ ']' :: rest))) := by
  simp

end Expr

open Linework.Expr (isStop Stopped Head eq_of_isStop eq_of_stopped stopped_cons)

/-! ### Names, operators and literals -/

/-- No name has a stop. -/
lemma Token.IsName.not_stop {t : Token} (h : t.IsName) :
    ∀ c ∈ t.lexeme.toList, isStop c = false := by
  intro c mem
  obtain ⟨solid, inner, -⟩ := h.chars c mem
  rw [← Bool.not_eq_true]
  intro stop
  obtain rfl | rfl | rfl | rfl := eq_of_isStop stop
  · exact absurd solid (by decide)
  · cases inner
  · cases inner
  · cases inner

/-- The first character of a name tells that it is one. -/
lemma Token.IsName.head {t : Token} (h : t.IsName) (rest : List Char) :
    Head.of (t.lexeme.toList ++ rest) = .name := by
  obtain ⟨c, first, noNumber⟩ := h.first
  obtain ⟨cs, word⟩ := List.head?_eq_some_iff.mp first
  obtain ⟨-, inner, noQuote⟩ := h.chars c (List.mem_of_mem_head? first)
  have noDigit : c.isDigit = false := (Bool.or_eq_false_iff.mp noNumber).1
  have others : c ≠ '(' ∧ c ≠ '[' ∧ c ≠ '-' := by
    refine ⟨?_, ?_, ?_⟩ <;>
    · rintro rfl
      cases inner
  simp [word, Head.of, others, noQuote, noDigit]

/-- A finite number begins with a digit or a minus sign. -/
lemma displayNumber_first {x : Float} (finite : x.isFinite = true) :
    ∃ c cs, (displayNumber x).toList = c :: cs ∧ (c = '-' ∨ c.isDigit = true) := by
  obtain positive | ⟨cs, negative, -⟩ := displayNumber_chars finite
  · obtain ⟨c, first, digit⟩ := positive.first
    obtain ⟨cs, word⟩ := List.head?_eq_some_iff.mp first
    exact ⟨c, cs, word, .inr digit⟩
  · exact ⟨'-', cs, negative, .inl rfl⟩

/-- The first character of a value tells that it is one. -/
lemma Value.Legible.head {v : Value} (h : v.Legible) (rest : List Char) :
    Head.of (v.printLiteral.toList ++ rest) = .literal := by
  cases h with
  | text => simp [printLiteral, Head.of]
  | @number x finite =>
    change Head.of ((displayNumber x).toList ++ rest) = .literal
    obtain ⟨c, cs, word, begins⟩ := displayNumber_first finite
    have others : c ≠ '(' ∧ c ≠ '[' := by
      refine ⟨?_, ?_⟩ <;>
      · rintro rfl
        exact absurd begins (by decide)
    simpa [word, Head.of, others] using fun _ noSign => begins.resolve_left noSign

/-- A plain number has no stop. -/
lemma Decimal.IsPlain.not_stop {cs : List Char} (h : IsPlain cs) :
    ∀ c ∈ cs, isStop c = false := by
  intro c mem
  have char := h.chars c mem
  rw [← Bool.not_eq_true]
  intro stop
  obtain rfl | rfl | rfl | rfl := eq_of_isStop stop <;> exact absurd char (by decide)

/-- A finite number has no stop. -/
lemma displayNumber_not_stop {x : Float} (finite : x.isFinite = true) :
    ∀ c ∈ (displayNumber x).toList, isStop c = false := by
  obtain positive | ⟨cs, negative, plain⟩ := displayNumber_chars finite
  · exact positive.not_stop
  · rw [negative]
    exact List.forall_mem_cons.mpr ⟨rfl, plain.not_stop⟩

/-- A finite number does not begin with a quote. -/
lemma displayNumber_ne_quote {x : Float} (finite : x.isFinite = true) (cs rest : List Char) :
    (displayNumber x).toList ++ rest ≠ '"' :: cs := by
  intro same
  obtain ⟨c, cs', word, begins⟩ := displayNumber_first finite
  rw [word] at same
  cases same
  exact absurd begins (by decide)

/-- The text of a value determines it and its end. -/
lemma Value.printLiteral_append_inj {v v' : Value} {rest rest' : List Char} (h : v.Legible)
    (h' : v'.Legible) (stopped : Stopped rest) (stopped' : Stopped rest')
    (same : v.printLiteral.toList ++ rest = v'.printLiteral.toList ++ rest') :
    v = v' ∧ rest = rest' := by
  have quoted (s : String) (rest : List Char) :
      (Value.text s).printLiteral.toList ++ rest = '"' :: (s.toList ++ '"' :: rest) := by
    simp [printLiteral]
  cases h with
  | @text s noQuote =>
    rw [quoted] at same
    cases h' with
    | @text s' noQuote' =>
      rw [quoted] at same
      obtain ⟨texts, rests⟩ := eq_of_delimited noQuote noQuote' (List.cons.inj same).2
      exact ⟨congrArg _ (String.toList_inj.mp texts), rests⟩
    | number finite => exact absurd same.symm (displayNumber_ne_quote finite _ _)
  | number finite =>
    cases h' with
    | text =>
      rw [quoted] at same
      exact absurd same (displayNumber_ne_quote finite _ _)
    | number finite' =>
      obtain ⟨texts, rests⟩ := eq_of_stopped (displayNumber_not_stop finite)
        (displayNumber_not_stop finite') stopped stopped' same
      exact ⟨congrArg _ (displayNumber_inj finite finite' (String.toList_inj.mp texts)), rests⟩

/-- The text of a mode determines it. -/
lemma RangeMode.suffix_append_inj {mode mode' : RangeMode} {rest rest' : List Char}
    (same : mode.suffix.toList ++ ']' :: rest = mode'.suffix.toList ++ ']' :: rest') :
    mode = mode' ∧ rest = rest' := by
  cases mode <;> cases mode' <;> simp_all [suffix]

/-- A mode or the bracket stops what is before. -/
lemma RangeMode.stopped_suffix (mode : RangeMode) (rest : List Char) :
    Stopped (mode.suffix.toList ++ ']' :: rest) := by
  cases mode <;> exact stopped_cons rfl _

/-! ### Unique readability -/

namespace Expr

/-- The beginning of a printed form tells what was printed. -/
lemma head_print {e : Expr} (h : e.Legible) (rest : List Char) :
    Head.of (e.print.toList ++ rest) = e.head := by
  cases e with
  | literal v => exact Value.Legible.head h rest
  | ref name => exact Token.IsName.head h rest
  | group inner => exact toList_print_group inner ▸ Head.of_enclosed (by decide) _ _
  | unary op right =>
    rw [toList_print_unary, Head.of_enclosed h.1.short.1, Head.ofWord_sign h.1]
    rfl
  | binary left op right =>
    rw [toList_print_binary, Head.of_enclosed h.2.1.short.1, Head.ofWord_sign h.2.1]
    rfl
  | call callee arguments => exact toList_print_call callee _ ▸ Head.of_enclosed (by decide) _ _
  | range low high mode =>
    rw [toList_print_range_append]
    rfl
  | logic first rest' => exact toList_print_logic first _ ▸ Head.of_enclosed (by decide) _ _

/-- Arguments or the parenthesis stop what is before. -/
lemma stopped_printArguments (es : List Expr) (rest : List Char) :
    Stopped ((printArguments es).toList ++ ')' :: rest) := by
  cases es with
  | nil => exact stopped_cons rfl _
  | cons e es =>
    simp only [printArguments, String.toList_append, List.append_assoc]
    exact stopped_cons rfl _

/-- Conditions or the parenthesis stop what is before. -/
lemma stopped_printRest (es : List (Token × Expr)) (rest : List Char) :
    Stopped ((printRest es).toList ++ ')' :: rest) := by
  cases es with
  | nil => exact stopped_cons rfl _
  | cons operation es =>
    simp only [printRest, String.toList_append, List.append_assoc]
    exact stopped_cons rfl _

/-- Expressions of which the same characters are printed begin in the same way. -/
lemma head_eq {e e' : Expr} {rest rest' : List Char} (h : e.Legible) (h' : e'.Legible)
    (same : e.print.toList ++ rest = e'.print.toList ++ rest') : e.head = e'.head := by
  rw [← head_print h rest, same, head_print h']

mutual

/-- A printed expression determines the tree up to columns, and where it ends. -/
lemma print_append_inj : (e e' : Expr) → ∀ {rest rest' : List Char},
    e.Legible → e'.Legible → Stopped rest → Stopped rest' →
    e.print.toList ++ rest = e'.print.toList ++ rest' →
    e.placeless = e'.placeless ∧ rest = rest'
  | .literal v, e', rest, rest', h, h', stopped, stopped', same => by
    -- the forms begin alike, here and below, which leaves one shape for the other tree
    have heads := head_eq h h' same
    cases e' with
    | literal v' =>
      obtain ⟨rfl, rests⟩ := Value.printLiteral_append_inj h h' stopped stopped' same
      exact ⟨rfl, rests⟩
    | _ => cases heads
  | .ref name, e', rest, rest', h, h', stopped, stopped', same => by
    have heads := head_eq h h' same
    cases e' with
    | ref name' =>
      obtain ⟨words, rests⟩ :=
        eq_of_stopped (Token.IsName.not_stop h) (Token.IsName.not_stop h') stopped stopped' same
      exact ⟨congrArg ref (Token.IsName.placeless_eq h h' (String.toList_inj.mp words)), rests⟩
    | _ => cases heads
  | .group inner, e', rest, rest', h, h', _, _, same => by
    have heads := head_eq h h' same
    cases e' with
    | group inner' =>
      rw [toList_print_group, toList_print_group] at same
      obtain ⟨inners, rests⟩ := print_append_inj inner inner' h h' (stopped_cons rfl _)
        (stopped_cons rfl _) (enclosed_append_inj same)
      exact ⟨congrArg group inners, (List.cons.inj rests).2⟩
    | _ => cases heads
  | .unary op right, e', rest, rest', h, h', _, _, same => by
    have heads := head_eq h h' same
    rw [toList_print_unary] at same
    cases e' with
    | unary op' right' =>
      rw [toList_print_unary, ← Head.operator.inj heads] at same
      obtain ⟨rights, rests⟩ := print_append_inj right right' h.2 h'.2 (stopped_cons rfl _)
        (stopped_cons rfl _) (enclosed_append_inj same)
      have signs := h.1.placeless_eq h'.1 (String.toList_inj.mp (Head.operator.inj heads))
      exact ⟨congrArg₂ unary signs rights, (List.cons.inj rests).2⟩
    | binary left' op' right' =>
      -- the only operand ends before a parenthesis, the first of two before a blank
      rw [toList_print_binary, ← Head.operator.inj heads] at same
      have bodies := enclosed_append_inj same
      rw [List.append_assoc] at bodies
      obtain ⟨-, rests⟩ := print_append_inj right left' h.2 h'.1 (stopped_cons rfl _)
        (stopped_cons rfl _) bodies
      cases rests
    | _ => cases heads
  | .binary left op right, e', rest, rest', h, h', _, _, same => by
    have heads := head_eq h h' same
    rw [toList_print_binary] at same
    cases e' with
    | unary op' right' =>
      rw [toList_print_unary, ← Head.operator.inj heads] at same
      have bodies := enclosed_append_inj same
      rw [List.append_assoc] at bodies
      obtain ⟨-, rests⟩ := print_append_inj left right' h.1 h'.2 (stopped_cons rfl _)
        (stopped_cons rfl _) bodies
      cases rests
    | binary left' op' right' =>
      rw [toList_print_binary, ← Head.operator.inj heads] at same
      have bodies := enclosed_append_inj same
      rw [List.append_assoc, List.append_assoc] at bodies
      obtain ⟨lefts, more⟩ := print_append_inj left left' h.1 h'.1 (stopped_cons rfl _)
        (stopped_cons rfl _) bodies
      obtain ⟨rights, rests⟩ := print_append_inj right right' h.2.2 h'.2.2 (stopped_cons rfl _)
        (stopped_cons rfl _) (List.cons.inj more).2
      have signs := h.2.1.placeless_eq h'.2.1 (String.toList_inj.mp (Head.operator.inj heads))
      exact ⟨by simp only [placeless, lefts, signs, rights], (List.cons.inj rests).2⟩
    | _ => cases heads
  | .call callee arguments, e', rest, rest', h, h', _, _, same => by
    have heads := head_eq h h' same
    cases e' with
    | call callee' arguments' =>
      rw [toList_print_call, toList_print_call] at same
      have bodies := enclosed_append_inj same
      rw [List.append_assoc, List.append_assoc] at bodies
      obtain ⟨words, more⟩ := eq_of_stopped h.1.not_stop h'.1.not_stop
        (stopped_printArguments _ _) (stopped_printArguments _ _) bodies
      obtain ⟨others, rests⟩ := printArguments_append_inj arguments arguments' h.2 h'.2 more
      have names := h.1.placeless_eq h'.1 (String.toList_inj.mp words)
      exact ⟨congrArg₂ call names others, rests⟩
    | _ => cases heads
  | .range low high mode, e', rest, rest', h, h', _, _, same => by
    have heads := head_eq h h' same
    cases e' with
    | range low' high' mode' =>
      rw [toList_print_range_append, toList_print_range_append] at same
      obtain ⟨lows, more⟩ := print_append_inj low low' h.1 h'.1 (stopped_cons rfl _)
        (stopped_cons rfl _) (List.cons.inj same).2
      obtain ⟨highs, more⟩ := print_append_inj high high' h.2 h'.2 (mode.stopped_suffix _)
        (mode'.stopped_suffix _) (List.cons.inj more).2
      obtain ⟨rfl, rests⟩ := RangeMode.suffix_append_inj more
      exact ⟨by simp only [placeless, lows, highs], rests⟩
    | _ => cases heads
  | .logic first conditions, e', rest, rest', h, h', _, _, same => by
    have heads := head_eq h h' same
    cases e' with
    | logic first' conditions' =>
      rw [toList_print_logic, toList_print_logic] at same
      have bodies := enclosed_append_inj same
      rw [List.append_assoc, List.append_assoc] at bodies
      obtain ⟨firsts, more⟩ := print_append_inj first first' h.1 h'.1 (stopped_printRest _ _)
        (stopped_printRest _ _) bodies
      obtain ⟨others, rests⟩ := printRest_append_inj conditions conditions' h.2 h'.2 more
      exact ⟨congrArg₂ logic firsts others, rests⟩
    | _ => cases heads

/-- The text of arguments determines them up to columns. -/
lemma printArguments_append_inj : (es es' : List Expr) → ∀ {rest rest' : List Char},
    LegibleAll es → LegibleAll es' →
    (printArguments es).toList ++ ')' :: rest = (printArguments es').toList ++ ')' :: rest' →
    placelessAll es = placelessAll es' ∧ rest = rest'
  | [], [], _, _, _, _, same => ⟨rfl, (List.cons.inj same).2⟩
  | [], _ :: _, _, _, _, _, same => by simp [printArguments] at same
  | _ :: _, [], _, _, _, _, same => by simp [printArguments] at same
  | e :: es, e' :: es', rest, rest', h, h', same => by
    simp only [printArguments, String.toList_append, List.append_assoc] at same
    obtain ⟨firsts, more⟩ := print_append_inj e e' h.1 h'.1 (stopped_printArguments _ _)
      (stopped_printArguments _ _) (List.append_cancel_left same)
    obtain ⟨others, rests⟩ := printArguments_append_inj es es' h.2 h'.2 more
    exact ⟨congrArg₂ List.cons firsts others, rests⟩

/-- The text of the rest of a chain of conditions determines it up to columns. -/
lemma printRest_append_inj : (es es' : List (Token × Expr)) → ∀ {rest rest' : List Char},
    LegibleLogic es → LegibleLogic es' →
    (printRest es).toList ++ ')' :: rest = (printRest es').toList ++ ')' :: rest' →
    placelessLogic es = placelessLogic es' ∧ rest = rest'
  | [], [], _, _, _, _, same => ⟨rfl, (List.cons.inj same).2⟩
  | [], _ :: _, _, _, _, _, same => by simp [printRest] at same
  | _ :: _, [], _, _, _, _, same => by simp [printRest] at same
  | (op, e) :: es, (op', e') :: es', rest, rest', h, h', same => by
    simp only [printRest, String.toList_append, List.append_assoc] at same
    obtain ⟨words, more⟩ := eq_of_delimited h.1.short.1 h'.1.short.1 (List.append_cancel_left same)
    obtain ⟨firsts, more⟩ := print_append_inj e e' h.2.1 h'.2.1 (stopped_printRest _ _)
      (stopped_printRest _ _) more
    obtain ⟨others, rests⟩ := printRest_append_inj es es' h.2.2 h'.2.2 more
    have signs := h.1.placeless_eq h'.1 (String.toList_inj.mp words)
    exact ⟨by simp only [placelessLogic, signs, firsts, others], rests⟩

end

mutual

/-- The columns of a tree are not printed. -/
lemma print_placeless : (e : Expr) → e.placeless.print = e.print
  | .literal _ | .ref _ => rfl
  | .group inner => by simp only [placeless, print, print_placeless inner]
  | .unary _ right => by simp only [placeless, print, print_placeless right, Token.placeless]
  | .binary left _ right => by
    simp only [placeless, print, print_placeless left, print_placeless right, Token.placeless]
  | .call _ arguments => by
    simp only [placeless, print, printArguments_placeless arguments, Token.placeless]
  | .range low high _ => by simp only [placeless, print, print_placeless low, print_placeless high]
  | .logic first rest => by
    simp only [placeless, print, print_placeless first, printRest_placeless rest]

/-- Arguments are printed without columns. -/
lemma printArguments_placeless :
    (es : List Expr) → printArguments (placelessAll es) = printArguments es
  | [] => rfl
  | e :: es => by
    simp only [placelessAll, printArguments, print_placeless e, printArguments_placeless es]

/-- The rest of a chain of conditions is printed without columns. -/
lemma printRest_placeless :
    (es : List (Token × Expr)) → printRest (placelessLogic es) = printRest es
  | [] => rfl
  | (_, e) :: rest => by
    simp only [placelessLogic, printRest, print_placeless e, printRest_placeless rest,
      Token.placeless]

end

end Expr

/-- Two texts whose strings have no quotes and whose numbers are finite have the same printed form
exactly if their trees are the same up to columns. -/
theorem print_eq_iff_placeless_eq {text text' : List Char} {e e' : Expr}
    (compiled : (Formula.compile text).compiled = .ok e)
    (compiled' : (Formula.compile text').compiled = .ok e')
    (plain : ∀ v ∈ e.literals, v.Plain) (plain' : ∀ v ∈ e'.literals, v.Plain) :
    e.print = e'.print ↔ e.placeless = e'.placeless := by
  constructor
  · intro same
    refine (Expr.print_append_inj e e' (Formula.legible_compile compiled plain)
      (Formula.legible_compile compiled' plain') Expr.stopped_nil Expr.stopped_nil ?_).1
    rw [same]
  · intro same
    rw [← e.print_placeless, same, e'.print_placeless]

/-- The same expression with other blanks and another numeral, and a name with `=` in it. -/
theorem placeless_eq_of_other_blanks :
    ∃ e e' form,
      (Formula.compile "f(-1.50,\"b c\")&&[x:y=2:i]>!g()".toList).compiled = .ok e ∧
      (Formula.compile "f ( - 1.5 , \"b c\" )&& [ x :y=2 : i ]> ! g( )".toList).compiled = .ok e' ∧
      (∀ v ∈ e.literals, v.Plain) ∧ (∀ v ∈ e'.literals, v.Plain) ∧
      form = "(logic (call f (- 1.5) \"b c\") && (> [x:y=2:i] (! (call g))))" ∧
      e.print = form ∧ e'.print = form ∧ e.placeless = e'.placeless := by
  have read (text : List Char) (form : String)
      (h : (Formula.compile text).compiled.toOption.any
        (fun e => decide (e.print = form ∧ ∀ v ∈ e.literals, v.Plain)) = true) :
      ∃ e, (Formula.compile text).compiled = .ok e ∧ e.print = form ∧
        ∀ v ∈ e.literals, v.Plain := by
    cases compiled : (Formula.compile text).compiled with
    | error fault =>
      rw [compiled] at h
      cases h
    | ok e =>
      rw [compiled] at h
      exact ⟨e, rfl, of_decide_eq_true h⟩
  obtain ⟨e, compiled, printed, plain⟩ := read "f(-1.50,\"b c\")&&[x:y=2:i]>!g()".toList
    "(logic (call f (- 1.5) \"b c\") && (> [x:y=2:i] (! (call g))))" (by decide +kernel)
  obtain ⟨e', compiled', printed', plain'⟩ :=
    read "f ( - 1.5 , \"b c\" )&& [ x :y=2 : i ]> ! g( )".toList
      "(logic (call f (- 1.5) \"b c\") && (> [x:y=2:i] (! (call g))))" (by decide +kernel)
  exact ⟨e, e', _, compiled, compiled', plain, plain', rfl, printed, printed',
    (print_eq_iff_placeless_eq compiled compiled' plain plain').mp (printed.trans printed'.symm)⟩

-- with a quote in a string, one argument is printed like two
example :
    let form (text : String) :=
      (Formula.compile text.toList).compiled.toOption.map fun e => (e.print, e.literals.length)
    form "f(\"a\\\" \\\"b\")" = some ("(call f \"a\" \"b\")", 1) ∧
      form "f(\"a\", \"b\")" = some ("(call f \"a\" \"b\")", 2) := by
  decide +kernel

end Linework
