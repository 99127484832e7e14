import Linework.Proofs.LineText

/-!
# Lexemes

What can stand at the beginning of an expression, said without the functions that read it. A word
is read in the same way before every text that it does not run into (`Reads.before`).
-/

namespace Linework

/-- The kinds of operands: names and numbers. -/
def TokenKind.isOperand : TokenKind → Bool
  | identifier | number => true
  | _ => false

namespace Token

open Text

/-- The operators of two characters. -/
def double? : Char → Char → Option TokenKind
  | '!', '=' => some .bangEqual
  | '<', '=' => some .lessEqual
  | '>', '=' => some .greaterEqual
  | '=', '=' => some .equalEqual
  | '&', '&' => some .andAnd
  | '|', '|' => some .orOr
  | _, _ => none

/-- The operators of one character. -/
def lone? : Char → Option TokenKind
  | '!' => some .bang
  | '<' => some .less
  | '>' => some .greater
  | c => single? c

/-- The operator that a character begins before another one. Two characters win over one. -/
def operatorAt (c : Char) (next : Option Char) : Option (TokenKind × Nat) :=
  (next.bind (double? c)).map (·, 2) <|> (lone? c).map (·, 1)

/-- An operator is found by its first two characters. -/
lemma operator?_cons (c : Char) (cs : List Char) :
    operator? (c :: cs) = operatorAt c cs.head? := by
  cases cs with
  | nil =>
    generalize h : [c] = text
    fun_cases operator? text <;> cases h <;> simp_all [operatorAt, lone?]
  | cons d cs =>
    generalize h : c :: d :: cs = text
    fun_cases operator? text <;> cases h <;> simp_all [operatorAt, double?, lone?]

/-- The first character decides, together with the second one if the operator has two. -/
lemma operatorAt_eq_some {c : Char} {next : Option Char} {kind : TokenKind} {n : Nat}
    (h : operatorAt c next = some (kind, n)) :
    n = 2 ∧ (∃ d ∈ next, double? c d = some kind) ∨
      n = 1 ∧ next.bind (double? c) = none ∧ lone? c = some kind := by
  rw [operatorAt] at h
  cases two : next.bind (double? c) with
  | some kind' =>
    rw [two] at h
    cases h
    exact .inl ⟨rfl, Option.bind_eq_some_iff.mp two⟩
  | none =>
    rw [two] at h
    obtain ⟨kind', one, ⟨⟩⟩ := Option.map_eq_some_iff.mp h
    exact .inr ⟨rfl, rfl, one⟩

/-- No operator begins with a blank. -/
lemma double?_after_blank {c d : Char} (blank : isBlank c = true) : double? c d = none := by
  fun_cases double? c d with
  | case7 => rfl
  | _ => exact absurd blank (by decide)

/-- No operator ends with a blank. -/
lemma double?_before_blank {c d : Char} (blank : isBlank d = true) : double? c d = none := by
  fun_cases double? c d with
  | case7 => rfl
  | _ => exact absurd blank (by decide)

/-- A blank is no operator. -/
lemma lone?_blank {c : Char} (blank : isBlank c = true) : lone? c = none := by
  fun_cases lone? c with
  | case4 =>
    fun_cases single? c with
    | case12 => rfl
    | _ => exact absurd blank (by decide)
  | _ => exact absurd blank (by decide)

/-- An operator of two characters is neither an operand nor the end. -/
lemma kind_of_double? {c d : Char} {kind : TokenKind} (h : double? c d = some kind) :
    kind.isOperand = false ∧ kind ≠ .endOfText := by
  revert h
  fun_cases double? c d with
  | case7 => rintro ⟨⟩
  | _ =>
    rintro ⟨⟩
    exact ⟨rfl, by decide⟩

/-- An operator of one character is neither an operand nor the end. -/
lemma kind_of_lone? {c : Char} {kind : TokenKind} (h : lone? c = some kind) :
    kind.isOperand = false ∧ kind ≠ .endOfText := by
  revert h
  fun_cases lone? c with
  | case4 =>
    fun_cases single? c with
    | case12 => rintro ⟨⟩
    | _ =>
      rintro ⟨⟩
      exact ⟨rfl, by decide⟩
  | _ =>
    rintro ⟨⟩
    exact ⟨rfl, by decide⟩

/-- No text, or one that begins with a blank. -/
def Apart (cs : List Char) : Prop := ∀ c ∈ cs.head?, isBlank c = true

/-- The first text does not lengthen a word before it if the second one does not: it begins in the
same way, or stands apart. -/
def Spares (rest' rest : List Char) : Prop := rest'.head? = rest.head? ∨ Apart rest'

/-- Two characters are no operator before a text that spares the first one. -/
lemma double?_spares {c : Char} {rest rest' : List Char} (spares : Spares rest' rest)
    (alone : rest.head?.bind (double? c) = none) : rest'.head?.bind (double? c) = none := by
  obtain same | apart := spares
  · rw [same, alone]
  · rw [Option.bind_eq_none_iff]
    exact fun d first => double?_before_blank (apart d first)

/-- At a blank there is no operator. -/
lemma operator?_blank {c : Char} (blank : isBlank c = true) (cs : List Char) :
    operator? (c :: cs) = none := by
  have none : cs.head?.bind (double? c) = none := by
    rw [Option.bind_eq_none_iff]
    exact fun d _ => double?_after_blank blank
  rw [operator?_cons, operatorAt, none, lone?_blank blank]
  rfl

/-- A blank is no quote. -/
lemma ne_quote_of_blank {c : Char} (blank : isBlank c = true) : c ≠ '"' := by
  rintro rfl
  exact absurd blank (by decide)

/-- A blank ends no operand. -/
lemma endsOperand_blank {c : Char} (blank : isBlank c = true) (cs : List Char) :
    endsOperand (c :: cs) = false := by
  simp [endsOperand, operator?_blank blank, ne_quote_of_blank blank]

/-- An operand that goes on before a text goes on before every text that spares it. -/
lemma endsOperand_spares {c : Char} {cs cs' : List Char} (spares : Spares cs' cs)
    (h : endsOperand (c :: cs) = false) : endsOperand (c :: cs') = false := by
  rw [← Bool.not_eq_true] at h ⊢
  simp only [endsOperand, Bool.or_eq_true, not_or, List.head?_cons] at h ⊢
  refine ⟨fun begins => h.1 ?_, h.2⟩
  obtain ⟨⟨kind, n⟩, found⟩ := Option.isSome_iff_exists.mp begins
  rw [operator?_cons] at found ⊢
  obtain ⟨-, d, first, two⟩ | ⟨-, -, one⟩ := operatorAt_eq_some found
  · obtain same | apart := spares
    · rw [← same, found]
      rfl
    · rw [double?_before_blank (apart d first)] at two
      cases two
  · -- an operator of one character is there before every text, perhaps as part of a longer one
    rw [operatorAt, one]
    cases cs.head?.bind (double? c) <;> rfl

/-- An operand goes on with a character that does not end it. -/
lemma operandRun_cons {c : Char} {cs : List Char} (h : endsOperand (c :: cs) = false) :
    operandRun (c :: cs) = c :: operandRun cs := by
  rw [operandRun, h, if_neg Bool.false_ne_true]

/-- An operand stops at what ends it. -/
lemma operandRun_of_ends {cs : List Char} (h : endsOperand cs = true) : operandRun cs = [] := by
  cases cs with
  | nil => rfl
  | cons c cs => rw [operandRun, if_pos h]

/-- An operand is the beginning of what is left. -/
lemma operandRun_initial (cs : List Char) : operandRun cs <+: cs := by
  induction cs with
  | nil => exact List.prefix_rfl
  | cons c cs ih =>
    rw [operandRun]
    split
    · exact List.nil_prefix
    · exact List.cons_prefix_cons.mpr ⟨rfl, ih⟩

/-- The operand characters before a text are no longer there because of it. -/
def Unbroken (word rest : List Char) : Prop :=
  operandRun (word ++ rest) = word ++ operandRun rest

/-- A word is unbroken if none of its characters ends operands. -/
lemma unbroken_cons {c : Char} {word rest : List Char} :
    Unbroken (c :: word) rest ↔ endsOperand (c :: (word ++ rest)) = false ∧ Unbroken word rest := by
  rw [Unbroken, Unbroken, List.cons_append, List.cons_append, operandRun]
  cases endsOperand (c :: (word ++ rest)) with
  | true => simp
  | false => simp

/-- The beginning of an operand is unbroken. -/
lemma unbroken_of_initial {word rest : List Char} (h : word <+: operandRun (word ++ rest)) :
    Unbroken word rest := by
  induction word with
  | nil => rfl
  | cons c word ih =>
    rw [List.cons_append] at h
    cases ends : endsOperand (c :: (word ++ rest)) with
    | true =>
      rw [operandRun_of_ends ends] at h
      cases List.prefix_nil.mp h
    | false =>
      rw [operandRun_cons ends] at h
      exact unbroken_cons.mpr ⟨ends, ih (List.cons_prefix_cons.mp h).2⟩

/-- A word stays unbroken before something that ends it no earlier. -/
lemma Unbroken.before {word rest rest' : List Char} (h : Unbroken word rest)
    (spares : Spares rest' rest) : Unbroken word rest' := by
  induction word with
  | nil => rfl
  | cons c word ih =>
    obtain ⟨goes, h⟩ := unbroken_cons.mp h
    refine unbroken_cons.mpr ⟨endsOperand_spares ?_ goes, ih h⟩
    cases word with
    | nil => exact spares
    | cons d word => exact .inl rfl

/-- Blanks are unbroken. -/
lemma unbroken_blank {gap : List Char} (blank : Blank gap) (rest : List Char) :
    Unbroken gap rest := by
  induction gap with
  | nil => rfl
  | cons c gap ih =>
    obtain ⟨first, blank⟩ := List.forall_mem_cons.mp blank
    exact unbroken_cons.mpr ⟨endsOperand_blank first _, ih blank⟩

/-- The characters of a string after its opening quote, and the text that they stand for. -/
inductive Written : List Char → List Char → Prop where
  | closing : Written ['"'] []
  | quote {body text : List Char} (rest : Written body text) :
      Written ('\\' :: '"' :: body) ('"' :: text)
  | char {c : Char} {body text : List Char} (other : c ≠ '"')
      (itself : c = '\\' → body.head? ≠ some '"') (rest : Written body text) :
      Written (c :: body) (c :: text)

/-- A written text is read back, whatever follows. -/
lemma Written.readString? {body text : List Char} (h : Written body text) (rest : List Char) :
    readString? (body ++ rest) = some (text, body.length) := by
  induction h with
  | closing => rfl
  | quote _ ih =>
    rw [List.cons_append, List.cons_append, Token.readString?, ih]
    rfl
  | @char c body text other itself h ih =>
    rw [List.cons_append, Token.readString?, ih]
    · rfl
    · exact other
    · rintro cs rfl before
      have first : body.head? = some '"' := by
        cases h <;> cases before <;> rfl
      exact itself rfl first

/-- What is read as a text is one that is written. -/
lemma exists_written {cs text : List Char} {n : Nat} (h : readString? cs = some (text, n)) :
    ∃ body rest, cs = body ++ rest ∧ body.length = n ∧ Written body text := by
  fun_induction readString? cs generalizing text n with
  | case1 => cases h
  | case2 cs =>
    cases h
    exact ⟨['"'], cs, rfl, rfl, .closing⟩
  | case3 cs ih =>
    obtain ⟨⟨text', n'⟩, read, ⟨⟩⟩ := Option.map_eq_some_iff.mp h
    obtain ⟨body, rest, rfl, rfl, written⟩ := ih read
    exact ⟨'\\' :: '"' :: body, rest, rfl, rfl, .quote written⟩
  | case4 c cs other itself ih =>
    obtain ⟨⟨text', n'⟩, read, ⟨⟩⟩ := Option.map_eq_some_iff.mp h
    obtain ⟨body, rest, rfl, rfl, written⟩ := ih read
    refine ⟨c :: body, rest, rfl, rfl, .char other ?_ written⟩
    intro backslash first
    obtain ⟨body', rfl⟩ := List.head?_eq_some_iff.mp first
    exact itself _ backslash rfl

/-- An operand has no blanks, and all of its characters are in the token. -/
lemma operand_eq_token {word : List Char} {kind : TokenKind} {n : Nat} {literal : Option Value}
    (h : operand word = .token kind n literal) :
    (∀ c ∈ word, isBlank c = false) ∧ kind.isOperand = true ∧ n = word.length := by
  rw [operand] at h
  split at h
  · cases h
  · next solid =>
    refine ⟨by simpa using solid, ?_⟩
    split at h
    · split at h
      · cases h
        exact ⟨rfl, rfl⟩
      · cases h
    · cases h
      exact ⟨rfl, rfl⟩

/-- A token of some characters begins a text, and `rest` is what is left of the text. -/
inductive Reads : List Char → List Char → TokenKind → Option Value → Prop where
  | single {c : Char} {rest : List Char} {kind : TokenKind} (one : lone? c = some kind)
      (alone : rest.head?.bind (double? c) = none) : Reads [c] rest kind none
  | double {c d : Char} {rest : List Char} {kind : TokenKind} (two : double? c d = some kind) :
      Reads [c, d] rest kind none
  | string {body text rest : List Char} (written : Written body text) :
      Reads ('"' :: body) rest .stringLiteral (some (.text (String.ofList text)))
  | operand {word rest : List Char} {kind : TokenKind} {literal : Option Value}
      (nonempty : word ≠ []) (unbroken : Unbroken word rest) (gap : Blank (operandRun rest))
      (read : operand word = .token kind word.length literal) : Reads word rest kind literal

namespace Reads

variable {word rest rest' : List Char} {kind : TokenKind} {literal : Option Value}

/-- A lexeme has a first character. -/
lemma ne_nil (h : Reads word rest kind literal) : word ≠ [] := by
  cases h with
  | single | double | string => exact List.cons_ne_nil _ _
  | operand nonempty => exact nonempty

/-- A token does not begin with a blank. -/
lemma first (h : Reads word rest kind literal) : ∀ c ∈ word.head?, isBlank c = false := by
  intro c first
  rw [← Bool.not_eq_true]
  intro blank
  cases h with
  | single one =>
    cases first
    rw [lone?_blank blank] at one
    cases one
  | double two =>
    cases first
    rw [double?_after_blank blank] at two
    cases two
  | string =>
    cases first
    exact absurd blank (by decide)
  | operand _ _ _ read =>
    rw [(operand_eq_token read).1 c (List.mem_of_mem_head? first)] at blank
    cases blank

/-- No lexeme is the end. -/
lemma kind_ne (h : Reads word rest kind literal) : kind ≠ .endOfText := by
  cases h with
  | single one => exact (kind_of_lone? one).2
  | double two => exact (kind_of_double? two).2
  | string => decide
  | operand _ _ _ read =>
    rintro rfl
    cases (operand_eq_token read).2.1

/-- An operand is read in one way only. -/
lemma of_operand (h : Reads word rest kind literal) (operand : kind.isOperand = true) :
    word ≠ [] ∧ Unbroken word rest ∧ Blank (operandRun rest) := by
  cases h with
  | single one =>
    rw [(kind_of_lone? one).1] at operand
    cases operand
  | double two =>
    rw [(kind_of_double? two).1] at operand
    cases operand
  | string => cases operand
  | operand nonempty unbroken gap => exact ⟨nonempty, unbroken, gap⟩

/-- Between an operand and what ends it there are only blanks. -/
lemma gap (h : Reads word rest kind literal) (operand : kind.isOperand = true) :
    Blank (operandRun rest) := (h.of_operand operand).2.2

/-- An operand does not begin where another one ends. -/
lemma goes_on (h : Reads word rest kind literal) (operand : kind.isOperand = true) :
    endsOperand (word ++ rest) = false := by
  obtain ⟨nonempty, unbroken, -⟩ := h.of_operand operand
  obtain ⟨c, word, rfl⟩ := List.exists_cons_of_ne_nil nonempty
  exact (unbroken_cons.mp unbroken).1

/-- A token that is no operand ends an operand before it, whatever follows. -/
lemma ends (h : Reads word rest kind literal) (other : kind.isOperand = false)
    (rest' : List Char) : endsOperand (word ++ rest') = true := by
  cases h with
  | @single c _ _ one =>
    rw [List.singleton_append, endsOperand, operator?_cons, operatorAt, one]
    cases rest'.head?.bind (double? c) <;> rfl
  | @double c d _ _ two =>
    rw [List.cons_append, endsOperand, operator?_cons, operatorAt, List.cons_append,
      List.head?_cons, Option.bind_some, two]
    rfl
  | string => simp [endsOperand]
  | operand _ _ _ read =>
    rw [(operand_eq_token read).2.1] at other
    cases other

/-- A token is read in the same way before every text that spares it. After an operand, that text
has to have an end of operands behind its blanks, too. -/
lemma before (h : Reads word rest kind literal) (spares : Spares rest' rest)
    (gap : kind.isOperand = true → Blank (operandRun rest')) : Reads word rest' kind literal := by
  cases h with
  | single one alone => exact .single one (double?_spares spares alone)
  | double two => exact .double two
  | string written => exact .string written
  | operand nonempty unbroken _ read =>
    exact .operand nonempty (unbroken.before spares) (gap (operand_eq_token read).2.1) read

end Reads

/-- A blank is read as such. -/
lemma readLexeme_blank {c : Char} (blank : isBlank c = true) (cs : List Char) :
    readLexeme c cs = .blank := by
  rw [readLexeme, operator?_blank blank]
  dsimp only
  rw [if_neg (ne_quote_of_blank blank), if_pos blank]

/-- What is read as a blank is one. -/
lemma isBlank_of_readLexeme {c : Char} {cs : List Char} (h : readLexeme c cs = .blank) :
    isBlank c = true := by
  have no_operand (word : List Char) : operand word ≠ .blank := by
    rw [operand]
    split
    · rintro ⟨⟩
    · split
      · split <;> rintro ⟨⟩
      · rintro ⟨⟩
  rw [readLexeme] at h
  split at h
  · cases h
  · split at h
    · split at h <;> cases h
    · split at h
      · assumption
      · exact absurd h (no_operand _)

/-- What reading finds at a character that is neither blank nor the beginning of an operator. -/
lemma readLexeme_operand {c : Char} {cs : List Char} (goes : endsOperand (c :: cs) = false)
    (solid : isBlank c = false) : readLexeme c cs = operand (trimEnd (operandRun (c :: cs))) := by
  obtain ⟨noOperator, noQuote⟩ : operator? (c :: cs) = none ∧ c ≠ '"' := by
    simpa [endsOperand] using goes
  rw [readLexeme, noOperator]
  dsimp only
  rw [if_neg noQuote, solid, if_neg Bool.false_ne_true, operandRun_cons goes]

/-- A lexeme is read as the token it is. -/
lemma Reads.readLexeme {c : Char} {cs rest : List Char} {kind : TokenKind}
    {literal : Option Value} (h : Reads (c :: cs) rest kind literal) :
    readLexeme c (cs ++ rest) = .token kind (cs.length + 1) literal := by
  cases h with
  | single one alone =>
    rw [Token.readLexeme, operator?_cons, operatorAt, List.nil_append, alone, one]
    rfl
  | double two =>
    rw [Token.readLexeme, operator?_cons, operatorAt, List.singleton_append, List.head?_cons,
      Option.bind_some, two]
    rfl
  | string written =>
    have noOperator : operator? ('"' :: (cs ++ rest)) = none := by simp [operator?, single?]
    rw [Token.readLexeme, noOperator, written.readString?]
    rfl
  | operand nonempty unbroken gap read =>
    obtain ⟨solid, -⟩ := operand_eq_token read
    have last : ∀ d ∈ (c :: cs).getLast?, isBlank d = false :=
      fun d last => solid d (List.mem_of_mem_getLast? last)
    rw [readLexeme_operand (unbroken_cons.mp unbroken).1 (solid c List.mem_cons_self),
      ← List.cons_append, unbroken, trimEnd_append_blank gap, trimEnd_eq_self last, read]
    rfl

/-- Something is left of a word without the blanks behind it. -/
lemma trimEnd_ne_nil {c : Char} {cs : List Char} (solid : isBlank c = false) :
    trimEnd (c :: cs) ≠ [] := by
  intro nothing
  obtain ⟨right, blank, split, -⟩ := trimEnd_spec (c :: cs)
  rw [nothing, List.nil_append] at split
  have first := blank c (split ▸ List.mem_cons_self)
  rw [solid] at first
  cases first

/-- An operand is what is left of the characters up to its end without the blanks behind. -/
lemma exists_reads_operand {text : List Char} {kind : TokenKind} {n : Nat}
    {literal : Option Value} (nonempty : trimEnd (operandRun text) ≠ [])
    (h : operand (trimEnd (operandRun text)) = .token kind n literal) :
    ∃ word rest, text = word ++ rest ∧ word.length = n ∧ Reads word rest kind literal := by
  obtain ⟨gap, blank, run, -⟩ := trimEnd_spec (operandRun text)
  obtain ⟨after, split⟩ := operandRun_initial text
  generalize trimEnd (operandRun text) = word at *
  obtain ⟨-, -, rfl⟩ := operand_eq_token h
  have text_eq : text = word ++ (gap ++ after) := by rw [← List.append_assoc, ← run, split]
  have unbroken : Unbroken word (gap ++ after) :=
    unbroken_of_initial (text_eq ▸ run ▸ List.prefix_append word gap)
  have rest : operandRun (gap ++ after) = gap := by
    rw [Unbroken, ← text_eq, run] at unbroken
    exact (List.append_cancel_left unbroken).symm
  exact ⟨word, gap ++ after, text_eq, rfl, .operand nonempty unbroken (rest.symm ▸ blank) h⟩

/-- Every token is of one of the four forms. -/
lemma exists_reads {c : Char} {cs : List Char} {kind : TokenKind} {n : Nat}
    {literal : Option Value} (h : readLexeme c cs = .token kind n literal) :
    ∃ word rest, c :: cs = word ++ rest ∧ word.length = n ∧ Reads word rest kind literal := by
  rw [readLexeme] at h
  split at h
  · next kind' length found =>
    cases h
    rw [operator?_cons] at found
    obtain ⟨rfl, d, second, two⟩ | ⟨rfl, alone, one⟩ := operatorAt_eq_some found
    · obtain ⟨rest, rfl⟩ := List.head?_eq_some_iff.mp second
      exact ⟨[c, d], rest, rfl, rfl, .double two⟩
    · exact ⟨[c], cs, rfl, rfl, .single one alone⟩
  · next noOperator =>
    split at h
    · next quote =>
      subst quote
      split at h
      · next text n read =>
        cases h
        obtain ⟨body, rest, rfl, rfl, written⟩ := exists_written read
        exact ⟨'"' :: body, rest, rfl, rfl, .string written⟩
      · cases h
    · next noQuote =>
      split at h
      · cases h
      · next solid =>
        -- neither an operator nor a quote nor a blank: here an operand begins
        have goes : endsOperand (c :: cs) = false := by simp [endsOperand, noOperator, noQuote]
        rw [← operandRun_cons goes] at h
        refine exists_reads_operand ?_ h
        rw [operandRun_cons goes]
        exact trimEnd_ne_nil (Bool.not_eq_true _ ▸ solid)

end Token

end Linework
