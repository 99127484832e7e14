import Linework.Proofs.OpenBlocks

/-!
# The line at fault

Where and why a script is refused, said by its lines alone: at the first line that begins with a
word and does not go on as the word demands, that ends or turns a block although none is open, or
that turns a block which cannot be turned. No later line matters.
-/

namespace Linework

open Text

/-- A declaration after its word: blanks, a name, and `=` with a value unless it ends there. -/
structure Naming where
  gap : List Char
  name : List Char
  value : Option (List Char × List Char)
  gap_ne_nil : gap ≠ []
  blank_gap : Blank gap
  isName : Line.isName name = true
  blank_space : ∀ p ∈ value, Blank p.1

/-- A declaration after its first blanks. -/
def Naming.chars (d : Naming) : List Char :=
  d.name ++ match d.value with
    | none => []
    | some (space, value) => space ++ '=' :: value

/-- A line that begins with a word and does not go on as the word demands, and what is said about
it. -/
inductive Malformed (cs : List Char) : LayoutError.Cause → Prop where
  | function :
    Opens "function" cs →
    (¬ ∃ h : Header, cs = "function".toList ++ (h.gap ++ h.chars)) →
    Malformed cs (.malformedFunction (String.ofList cs))
  | branch :
    Opens "if" cs →
    (¬ ∃ c : Condition, cs = "if".toList ++ (c.gap ++ c.chars)) →
    Malformed cs (.malformedCondition (String.ofList cs))
  | loop :
    Opens "while" cs →
    (¬ ∃ c : Condition, cs = "while".toList ++ (c.gap ++ c.chars)) →
    Malformed cs (.malformedCondition (String.ofList cs))
  | declaration :
    Opens "let" cs →
    (¬ ∃ d : Naming, cs = "let".toList ++ (d.gap ++ d.chars)) →
    Malformed cs (.malformedDeclaration (String.ofList cs))

/-- A line that a keyword opens begins with the letter of the keyword. -/
lemma Opens.head? {keyword : String} {cs : List Char} {c : Char} (h : Opens keyword cs)
    (begins : keyword.toList.head? = some c) : cs.head? = some c := by
  obtain ⟨rest, rfl, -⟩ := h
  rw [List.head?_append, begins]
  rfl

/-- There is something after the keyword, if only nothing. -/
lemma Opens.afterKeyword? {keyword : String} {cs : List Char} (h : Opens keyword cs) :
    ∃ rest, Line.afterKeyword? keyword cs = some rest := by
  obtain ⟨rest, rfl, ends⟩ := h
  exact ⟨_, afterKeyword?_append ends⟩

/-- A text that begins with another letter than a word is not that word, nor opens with it. -/
lemma other_word {cs : List Char} {c : Char} (head : cs.head? = some c) (keyword : String)
    (d : Char) (begins : keyword.toList.head? = some d) (other : c ≠ d) :
    Line.afterKeyword? keyword cs = none ∧ cs ≠ keyword.toList := by
  refine ⟨afterKeyword?_eq_none.mpr (not_opens begins head other), ?_⟩
  rintro rfl
  rw [head] at begins
  exact other (Option.some.inj begins)

/-- A text that begins with another letter neither ends nor turns a block. -/
lemma other_block_word {cs : List Char} {c : Char} (head : cs.head? = some c) (other : c ≠ 'e') :
    cs ≠ "end".toList ∧ cs ≠ "else".toList := by
  obtain ⟨-, no_end⟩ := other_word head "end" 'e' (by simp) other
  obtain ⟨-, no_else⟩ := other_word head "else" 'e' (by simp) other
  exact ⟨no_end, no_else⟩

section Reading

variable {cs rest : List Char}

/-- After `function` a line is read as the head of a function. -/
lemma read_function (h : Line.afterKeyword? "function" cs = some rest) :
    Line.read cs = match Line.readHead? rest with
      | some (name, params) => .ok (.function name params)
      | none => .error (.malformedFunction (String.ofList cs)) := by
  have head := (opens_of_afterKeyword? h).head? (c := 'f') (by simp)
  obtain ⟨no_end, no_else⟩ := other_block_word head (by decide)
  rewrite [Line.read, if_neg no_end, if_neg no_else, h]
  rfl

/-- After `if` a line is read as a condition. -/
lemma read_branch (h : Line.afterKeyword? "if" cs = some rest) :
    Line.read cs = match Line.readCondition? rest with
      | some condition => .ok (.branch condition)
      | none => .error (.malformedCondition (String.ofList cs)) := by
  have head := (opens_of_afterKeyword? h).head? (c := 'i') (by simp)
  obtain ⟨no_end, no_else⟩ := other_block_word head (by decide)
  obtain ⟨no_function, -⟩ := other_word head "function" 'f' (by simp) (by decide)
  rewrite [Line.read, if_neg no_end, if_neg no_else, no_function, h]
  rfl

/-- After `while` a line is read as a condition. -/
lemma read_loop (h : Line.afterKeyword? "while" cs = some rest) :
    Line.read cs = match Line.readCondition? rest with
      | some condition => .ok (.loop condition)
      | none => .error (.malformedCondition (String.ofList cs)) := by
  have head := (opens_of_afterKeyword? h).head? (c := 'w') (by simp)
  obtain ⟨no_end, no_else⟩ := other_block_word head (by decide)
  obtain ⟨no_function, -⟩ := other_word head "function" 'f' (by simp) (by decide)
  obtain ⟨no_branch, -⟩ := other_word head "if" 'i' (by simp) (by decide)
  rewrite [Line.read, if_neg no_end, if_neg no_else, no_function, no_branch, h]
  rfl

/-- After `let` a line is read as a declaration. -/
lemma read_declaration (h : Line.afterKeyword? "let" cs = some rest) :
    Line.read cs = match Line.readDeclaration? rest with
      | some (name, value) => .ok (.plain (.declare name value))
      | none => .error (.malformedDeclaration (String.ofList cs)) := by
  have head := (opens_of_afterKeyword? h).head? (c := 'l') (by simp)
  obtain ⟨no_end, no_else⟩ := other_block_word head (by decide)
  obtain ⟨no_function, -⟩ := other_word head "function" 'f' (by simp) (by decide)
  obtain ⟨no_branch, -⟩ := other_word head "if" 'i' (by simp) (by decide)
  obtain ⟨no_loop, -⟩ := other_word head "while" 'w' (by simp) (by decide)
  obtain ⟨-, no_break⟩ := other_word head "break" 'b' (by simp) (by decide)
  obtain ⟨-, no_continue⟩ := other_word head "continue" 'c' (by simp) (by decide)
  obtain ⟨no_return, -⟩ := other_word head "return" 'r' (by simp) (by decide)
  rw [Line.read, if_neg no_end, if_neg no_else, no_function, no_branch, no_loop,
    Line.readInstruction, if_neg no_break, if_neg no_continue, no_return, h]
  dsimp only
  cases Line.readDeclaration? rest <;> rfl

/-- Without the separator nothing is cut off. -/
lemma cut?_eq_none {separator : Char} (h : separator ∉ cs) : Line.cut? separator cs = none := by
  have all : cs.dropWhile (· ≠ separator) = [] := by
    rw [List.dropWhile_eq_nil_iff]
    intro c hc
    rw [decide_eq_true_eq]
    rintro rfl
    exact h hc
  rw [Line.cut?, all]

/-- A declaration is read. -/
lemma readDeclaration?_chars (d : Naming) : ∃ r, Line.readDeclaration? d.chars = some r := by
  obtain ⟨gap, name, value, -, -, isName, blank⟩ := d
  have no_equals := sign_not_mem isName (c := '=') (by decide)
  cases value with
  | none =>
    rw [Naming.chars, List.append_nil, Line.readDeclaration?, cut?_eq_none no_equals]
    exact ⟨_, if_pos isName⟩
  | some p =>
    obtain ⟨space, value⟩ := p
    have blank : Blank space := blank _ rfl
    have before : '=' ∉ name ++ space := by
      rw [List.mem_append, not_or]
      exact ⟨no_equals, fun mem => absurd (blank _ mem) (by decide)⟩
    have trimmed : trim (name ++ space) = name := by
      have padded := trim_padded (List.forall_mem_nil _) blank (trimmed_of_isName isName)
      rwa [List.nil_append] at padded
    rw [Naming.chars, ← List.append_assoc, Line.readDeclaration?, cut?_append before]
    simp only [trimmed, isName, if_true]
    exact ⟨_, rfl⟩

/-- What is read is a declaration. -/
lemma exists_naming (opens : Line.afterKeyword? "let" cs = some rest) {r : String × Option Formula}
    (h : Line.readDeclaration? rest = some r) :
    ∃ d : Naming, cs = "let".toList ++ (d.gap ++ d.chars) := by
  obtain ⟨gap, blank_gap, rfl, first, gapless⟩ := split_of_afterKeyword? opens
  rw [Line.readDeclaration?] at h
  cases found : Line.cut? '=' rest with
  | none =>
    rw [found] at h
    simp only at h
    split at h
    · next isName =>
      have some_gap := gap_ne_nil_of_isName gapless isName (List.append_nil _).symm
      refine ⟨⟨gap, rest, none, some_gap, blank_gap, isName, ?_⟩, ?_⟩
      · rintro p ⟨⟩
      · rw [Naming.chars, List.append_nil]
    · cases h
  | some p =>
    obtain ⟨before, after⟩ := p
    rw [found] at h
    simp only at h
    split at h
    · next isName =>
      obtain rfl := eq_of_cut? found
      obtain ⟨left, space, blank, blank', padded, -⟩ := trim_spec before
      generalize trim before = name at padded isName
      subst padded
      obtain rfl : left = [] := by
        rw [List.append_assoc, List.append_assoc] at first
        exact eq_nil_of_blank blank first
      have some_gap :=
        gap_ne_nil_of_isName gapless isName (by rw [List.nil_append, List.append_assoc])
      refine ⟨⟨gap, name, some (space, after), some_gap, blank_gap, isName, ?_⟩, ?_⟩
      · rintro p ⟨⟩
        exact blank'
      · simp [Naming.chars]
    · cases h

/-- A line is refused only if it begins with one of the words that demand something. -/
lemma opens_of_read_eq_error {cause : LayoutError.Cause} (h : Line.read cs = .error cause) :
    Opens "function" cs ∨ Opens "if" cs ∨ Opens "while" cs ∨ Opens "let" cs := by
  by_contra none
  simp only [not_or, ← afterKeyword?_eq_none] at none
  obtain ⟨no_function, no_branch, no_loop, no_declaration⟩ := none
  rw [Line.read, no_function, no_branch, no_loop, Line.readInstruction, no_declaration] at h
  dsimp only at h
  split at h
  · cases h
  split at h
  · cases h
  split at h
  · cases h
  split at h
  · cases h
  split at h
  · cases h
  · cases h
  · split at h <;> cases h

end Reading

/-- A declaration does not begin with a blank. -/
lemma Naming.first (d : Naming) : ∀ c ∈ d.chars.head?, isBlank c = false := by
  intro c hc
  have trimmed := trimmed_of_isName d.isName
  cases name : d.name with
  | nil =>
    have := d.isName
    rw [name] at this
    cases this
  | cons e es =>
    rw [name] at trimmed
    rw [chars, name] at hc
    exact trimmed.first c hc

/-- A declaration is read. -/
lemma Naming.read_text (d : Naming) :
    ∃ said, Line.read ("let".toList ++ (d.gap ++ d.chars)) = .ok said := by
  obtain ⟨r, reads⟩ := readDeclaration?_chars d
  rw [read_declaration (afterKeyword?_gap d.blank_gap d.first (.inl d.gap_ne_nil)), reads]
  exact ⟨_, rfl⟩

section Refusal

variable {cs : List Char} {cause cause' : LayoutError.Cause} {Form : Prop}

/-- A line that is read has the form and no error. -/
lemma read_ne_error {said : Line} (reads : Line.read cs = .ok said) (form : Form) :
    Line.read cs = .error cause ↔ ¬ Form ∧ cause = cause' := by
  rw [reads]
  constructor
  · rintro ⟨⟩
  · exact fun refused => absurd form refused.1

/-- A line that is refused does not have the form. -/
lemma read_eq_error (reads : Line.read cs = .error cause')
    (form : Form → ∃ said, Line.read cs = .ok said) :
    Line.read cs = .error cause ↔ ¬ Form ∧ cause = cause' := by
  constructor
  · intro refused
    cases reads.symm.trans refused
    refine ⟨fun holds => ?_, rfl⟩
    obtain ⟨said, accepted⟩ := form holds
    cases reads.symm.trans accepted
  · rintro ⟨-, rfl⟩
    exact reads

/-- The head of a function is refused if it does not have the form of one. -/
lemma function_refused_iff (bare : Bare cs) (opens : Opens "function" cs) :
    Line.read cs = .error cause ↔
      (¬ ∃ h : Header, cs = "function".toList ++ (h.gap ++ h.chars)) ∧
        cause = .malformedFunction (String.ofList cs) := by
  obtain ⟨rest, after⟩ := opens.afterKeyword?
  have reads := read_function after
  cases found : Line.readHead? rest with
  | none =>
    rw [found] at reads
    refine read_eq_error reads ?_
    rintro ⟨header, rfl⟩
    exact ⟨_, (Sentence.function header).read_text⟩
  | some p =>
    rw [found] at reads
    refine read_ne_error reads ?_
    obtain ⟨s, rfl, meaning⟩ := exists_sentence_of_read bare reads
    cases s with
    | function header => exact ⟨header, rfl⟩
    | finish | otherwise | branch | loop | plain => cases meaning

/-- A branch is refused if its condition does not have the form of one. -/
lemma branch_refused_iff (bare : Bare cs) (opens : Opens "if" cs) :
    Line.read cs = .error cause ↔
      (¬ ∃ c : Condition, cs = "if".toList ++ (c.gap ++ c.chars)) ∧
        cause = .malformedCondition (String.ofList cs) := by
  obtain ⟨rest, after⟩ := opens.afterKeyword?
  have reads := read_branch after
  cases found : Line.readCondition? rest with
  | none =>
    rw [found] at reads
    refine read_eq_error reads ?_
    rintro ⟨condition, rfl⟩
    exact ⟨_, (Sentence.branch condition).read_text⟩
  | some condition =>
    rw [found] at reads
    refine read_ne_error reads ?_
    obtain ⟨s, rfl, meaning⟩ := exists_sentence_of_read bare reads
    cases s with
    | branch condition => exact ⟨condition, rfl⟩
    | finish | otherwise | function | loop | plain => cases meaning

/-- A loop is refused if its condition does not have the form of one. -/
lemma loop_refused_iff (bare : Bare cs) (opens : Opens "while" cs) :
    Line.read cs = .error cause ↔
      (¬ ∃ c : Condition, cs = "while".toList ++ (c.gap ++ c.chars)) ∧
        cause = .malformedCondition (String.ofList cs) := by
  obtain ⟨rest, after⟩ := opens.afterKeyword?
  have reads := read_loop after
  cases found : Line.readCondition? rest with
  | none =>
    rw [found] at reads
    refine read_eq_error reads ?_
    rintro ⟨condition, rfl⟩
    exact ⟨_, (Sentence.loop condition).read_text⟩
  | some condition =>
    rw [found] at reads
    refine read_ne_error reads ?_
    obtain ⟨s, rfl, meaning⟩ := exists_sentence_of_read bare reads
    cases s with
    | loop condition => exact ⟨condition, rfl⟩
    | finish | otherwise | function | branch | plain => cases meaning

/-- A declaration is refused if it does not have the form of one. -/
lemma declaration_refused_iff (opens : Opens "let" cs) :
    Line.read cs = .error cause ↔
      (¬ ∃ d : Naming, cs = "let".toList ++ (d.gap ++ d.chars)) ∧
        cause = .malformedDeclaration (String.ofList cs) := by
  obtain ⟨rest, after⟩ := opens.afterKeyword?
  have reads := read_declaration after
  cases found : Line.readDeclaration? rest with
  | none =>
    rw [found] at reads
    refine read_eq_error reads ?_
    rintro ⟨naming, rfl⟩
    exact naming.read_text
  | some r =>
    rw [found] at reads
    exact read_ne_error reads (exists_naming after found)

/-- A line is refused exactly if it is malformed. -/
lemma read_eq_error_iff (bare : Bare cs) : Line.read cs = .error cause ↔ Malformed cs cause := by
  constructor
  · intro h
    obtain opens | opens | opens | opens := opens_of_read_eq_error h
    · obtain ⟨none, rfl⟩ := (function_refused_iff bare opens).mp h
      exact .function opens none
    · obtain ⟨none, rfl⟩ := (branch_refused_iff bare opens).mp h
      exact .branch opens none
    · obtain ⟨none, rfl⟩ := (loop_refused_iff bare opens).mp h
      exact .loop opens none
    · obtain ⟨none, rfl⟩ := (declaration_refused_iff opens).mp h
      exact .declaration opens none
  · intro h
    cases h with
    | function opens none => exact (function_refused_iff bare opens).mpr ⟨none, rfl⟩
    | branch opens none => exact (branch_refused_iff bare opens).mpr ⟨none, rfl⟩
    | loop opens none => exact (loop_refused_iff bare opens).mpr ⟨none, rfl⟩
    | declaration opens none => exact (declaration_refused_iff opens).mpr ⟨none, rfl⟩

end Refusal

/-- Why a line is at fault after earlier ones. -/
inductive Offends (earlier : List (List Char)) (cs : List Char) : LayoutError.Cause → Prop where
  | malformed {cause} :
    Malformed cs cause →
    Offends earlier cs cause
  /-- As many blocks have ended as have begun. -/
  | unmatched :
    cs = "end".toList ∨ cs = "else".toList →
    heads earlier = ends earlier →
    Offends earlier cs .unmatchedBlock
  /-- The innermost open block is a function, a loop or the other block of a branch. -/
  | dangling {before raw inside} :
    cs = "else".toList →
    earlier = before ++ raw :: inside →
    Enclosed inside →
    Opens "function" (trim raw) ∨ Opens "while" (trim raw) ∨
      Opens "if" (trim raw) ∧ HasElse inside →
    Offends earlier cs .danglingElse

/-- No line at fault is silent. -/
lemma Offends.head? {earlier : List (List Char)} {cs : List Char} {cause : LayoutError.Cause}
    (h : Offends earlier cs cause) : ∃ c, cs.head? = some c ∧ c ≠ '/' := by
  cases h with
  | malformed bad =>
    cases bad with
    | function opens => exact ⟨'f', opens.head? (by simp), by decide⟩
    | branch opens => exact ⟨'i', opens.head? (by simp), by decide⟩
    | loop opens => exact ⟨'w', opens.head? (by simp), by decide⟩
    | declaration opens => exact ⟨'l', opens.head? (by simp), by decide⟩
  | unmatched word => exact ⟨'e', by obtain rfl | rfl := word <;> simp, by decide⟩
  | dangling word => exact ⟨'e', by simp [word], by decide⟩

/-- A line that is refused whatever stands before it offends by its own wording. -/
lemma Offends.malformed_of_read {earlier : List (List Char)} {cs : List Char}
    {cause cause' : LayoutError.Cause} (h : Offends earlier cs cause)
    (read : Line.read cs = .error cause') : Malformed cs cause := by
  have sentence (s : Sentence) : cs ≠ s.text := by
    rintro rfl
    rw [s.read_text] at read
    cases read
  cases h with
  | malformed bad => exact bad
  | unmatched word =>
    obtain finish | turn := word
    · exact absurd finish (sentence .finish)
    · exact absurd turn (sentence .otherwise)
  | dangling turn => exact absurd turn (sentence .otherwise)

/-- There is only one innermost open block. -/
lemma Enclosed.innermost_unique {before before' inside inside' : List (List Char)}
    {raw raw' : List Char} (split : before ++ raw :: inside = before' ++ raw' :: inside')
    (head : isHead raw = true) (head' : isHead raw' = true) (h : Enclosed inside)
    (h' : Enclosed inside') : raw = raw' ∧ inside = inside' := by
  obtain ⟨cs, rfl, rfl⟩ | ⟨-, raw_eq, inside_eq⟩ | ⟨cs, rfl, rfl⟩ :=
    append_cons_eq_append_cons split
  · exact absurd (h.hasEnd_of_isHead head') h'.not_hasEnd
  · exact ⟨raw_eq, inside_eq⟩
  · exact absurd (h'.hasEnd_of_isHead head) h.not_hasEnd

namespace OpenAfter

variable {rows : List (List Char)} {stack : List OpenBlock}

/-- No block is open if there are as many ends as beginnings. -/
lemma stack_eq_nil_iff (h : OpenAfter rows stack) : stack = [] ↔ heads rows = ends rows := by
  rw [h.heads_eq, ← List.length_eq_zero_iff]
  omega

/-- Lines after which no block is open enclose all their blocks. -/
lemma enclosed (h : OpenAfter rows []) : Enclosed rows := by
  cases h with
  | closed all => exact all

/-- The innermost open block, if it cannot be turned. -/
lemma not_branch {before inside : List (List Char)} {raw : List Char}
    (h : OpenAfter (before ++ raw :: inside) stack) (enclosed : Enclosed inside)
    (kind : Opens "function" (trim raw) ∨ Opens "while" (trim raw) ∨
      Opens "if" (trim raw) ∧ HasElse inside) :
    ∃ top rest, stack = top :: rest ∧ ∀ condition, top.head ≠ .branch condition := by
  have head : isHead raw = true := by
    rw [isHead, decide_eq_true_iff]
    obtain opens | opens | ⟨opens, -⟩ := kind
    · exact .inl opens
    · exact .inr (.inr opens)
    · exact .inr (.inl opens)
  cases stack with
  | nil => exact absurd (h.enclosed.hasEnd_of_isHead head) enclosed.not_hasEnd
  | cons top rest =>
    refine ⟨top, rest, rfl, fun condition same => ?_⟩
    obtain ⟨before', raw', inside', split, -, -, suits, enclosed'⟩ := h.inv
    -- both lines head the innermost open block, so they are the same
    obtain ⟨rfl, rfl⟩ :=
      Enclosed.innermost_unique split head suits.isHead enclosed enclosed'
    rw [same] at suits
    have letter := suits.1.head? (c := 'i') (by simp)
    obtain opens | opens | ⟨-, turned⟩ := kind
    · exact not_opens (d := 'f') (by simp) letter (by decide) opens
    · exact not_opens (d := 'w') (by simp) letter (by decide) opens
    · exact suits.2 turned

end OpenAfter

namespace Layout

variable {l : Layout} {earlier : List (List Char)}

/-- The end of a block is refused exactly if none is open. -/
lemma finish_eq_error_iff {cause : LayoutError.Cause} :
    l.finish = .error cause ↔ l.stack = [] ∧ cause = .unmatchedBlock := by
  obtain ⟨root, stack, functions⟩ := l
  cases stack with
  | nil => simpa [Layout.finish] using eq_comm
  | cons top rest => simp [Layout.finish]

/-- The turn of a block is refused exactly if none is open, or the innermost one is not the first
block of a branch. -/
lemma turn_eq_error_iff {cause : LayoutError.Cause} :
    l.turn = .error cause ↔ l.stack = [] ∧ cause = .unmatchedBlock ∨
      (∃ top rest, l.stack = top :: rest ∧ ∀ condition, top.head ≠ .branch condition) ∧
        cause = .danglingElse := by
  obtain ⟨root, stack, functions⟩ := l
  cases stack with
  | nil => simpa [turn] using eq_comm
  | cons top rest =>
    obtain ⟨line, head, body⟩ := top
    cases head with
    | branch condition => simp [turn]
    | function | otherwise | loop => simpa [turn] using eq_comm

/-- A sentence is at fault exactly if it is the end or the turn of a block that is not there. -/
lemma add_eq_error_iff (account : OpenAfter earlier l.stack) (k : Nat) (s : Sentence)
    {cause : LayoutError.Cause} :
    l.add k s.meaning = .error cause ↔ Offends earlier s.text cause := by
  constructor
  · intro h
    cases s with
    | finish =>
      obtain ⟨closed, rfl⟩ := finish_eq_error_iff.mp h
      exact .unmatched (.inl rfl) (account.stack_eq_nil_iff.mp closed)
    | otherwise =>
      obtain ⟨closed, rfl⟩ | ⟨⟨top, rest, stack, no_branch⟩, rfl⟩ := turn_eq_error_iff.mp h
      · exact .unmatched (.inr rfl) (account.stack_eq_nil_iff.mp closed)
      -- the head of the innermost open block tells which `else` is wrong
      · rw [stack] at account
        obtain ⟨before, raw, inside, rfl, -, -, suits, enclosed⟩ := account.inv
        refine .dangling rfl rfl enclosed ?_
        generalize top.head = head at suits no_branch
        cases head with
        | function => exact .inl suits
        | branch condition => exact absurd rfl (no_branch condition)
        | otherwise => exact .inr (.inr suits)
        | loop => exact .inr (.inl suits)
    | function | branch | loop | plain => cases h
  · intro h
    generalize text : s.text = cs at h
    cases h with
    | malformed bad =>
      subst text
      rw [← read_eq_error_iff s.bare, s.read_text] at bad
      cases bad
    | unmatched word balanced =>
      have closed := account.stack_eq_nil_iff.mpr balanced
      obtain rfl | rfl := word
      · obtain rfl : s = .finish := Sentence.text_injective text
        exact finish_eq_error_iff.mpr ⟨closed, rfl⟩
      · obtain rfl : s = .otherwise := Sentence.text_injective text
        exact turn_eq_error_iff.mpr (.inl ⟨closed, rfl⟩)
    | dangling word split enclosed kind =>
      subst split
      obtain rfl : s = .otherwise := Sentence.text_injective (text.trans word)
      exact turn_eq_error_iff.mpr (.inr ⟨account.not_branch enclosed kind, rfl⟩)

/-- A text is at fault exactly if it offends, and then its own line is named. -/
lemma addText_eq_error_iff (account : OpenAfter earlier l.stack) (k : Nat) (raw : List Char)
    {e : LayoutError} :
    l.addText k raw = .error e ↔ e.line = k ∧ Offends earlier (trim raw) e.cause := by
  obtain silent | ⟨left, cs, right, blank, blank', bare, rfl⟩ := silent_or_padded raw
  · rw [addText_silent silent]
    constructor
    · rintro ⟨⟩
    · rintro ⟨-, offends⟩
      obtain ⟨c, head, other⟩ := offends.head?
      exact absurd (letter_of_silent silent c head) other
  · rw [addText_padded blank blank' bare, trim_padded blank blank' bare.toTrimmed]
    cases read : Line.read cs with
    | error cause =>
      have refused : l.addText k cs = .error ⟨k, cause⟩ := by
        rw [addText, trim_bare bare]
        simp only [isSilent_of_bare bare, Bool.false_eq_true, if_false, read]
      rw [refused]
      constructor
      · rintro ⟨⟩
        exact ⟨rfl, .malformed ((read_eq_error_iff bare).mp read)⟩
      · obtain ⟨line, cause'⟩ := e
        rintro ⟨rfl, offends⟩
        have same := (read_eq_error_iff bare).mpr (offends.malformed_of_read read)
        rw [read] at same
        cases same
        rfl
    | ok said =>
      obtain ⟨s, rfl, -⟩ := exists_sentence_of_read bare read
      rw [addText_sentence, ← add_eq_error_iff account k s, addRow]
      obtain ⟨line, cause⟩ := e
      cases l.add k s.meaning with
      | error cause' => simp [eq_comm]
      | ok l' => simp

/-- Reading lines fails at the first one that cannot be taken in. -/
lemma addLines_eq_error_iff {rows : List (List Char)} {k : Nat} {e : LayoutError} :
    l.addLines k rows = .error e ↔
      ∃ before raw after l', rows = before ++ raw :: after ∧ l.addLines k before = .ok l' ∧
        l'.addText (k + before.length) raw = .error e := by
  induction rows generalizing l k with
  | nil =>
    constructor
    · rintro ⟨⟩
    · rintro ⟨before, raw, after, l', none, -⟩
      exact absurd none.symm (List.append_ne_nil_of_right_ne_nil _ (List.cons_ne_nil _ _))
  | cons first rows ih =>
    constructor
    · intro h
      rw [addLines] at h
      cases added : l.addText k first with
      | error e' =>
        rw [added] at h
        cases h
        exact ⟨[], first, rows, l, rfl, rfl, added⟩
      | ok l₁ =>
        rw [added] at h
        obtain ⟨before, raw, after, l', rfl, read, fault⟩ := ih.mp h
        refine ⟨first :: before, raw, after, l', rfl, ?_, ?_⟩
        · rw [addLines, added]
          exact read
        · rw [← fault, List.length_cons]
          congr 1
          omega
    · rintro ⟨before, raw, after, l', split, read, fault⟩
      rw [split, addLines_append, read]
      change l'.addLines (k + before.length) (raw :: after) = .error e
      rw [addLines, fault]
      rfl

end Layout

namespace Script

/-- A text is refused where its lines are. -/
lemma parse_eq_error_iff_addLines {text : List Char} {e : LayoutError} :
    parse text = .error e ↔ Layout.empty.addLines 1 (rows text) = .error e := by
  rw [parse_eq]
  cases Layout.empty.addLines 1 (rows text) with
  | error e' =>
    constructor
    · rintro ⟨⟩
      rfl
    · rintro ⟨⟩
      rfl
  | ok l =>
    constructor
    · rintro ⟨⟩
    · rintro ⟨⟩

/-- A text is read if its lines are. -/
lemma parse_eq_ok_iff_addLines {text : List Char} :
    (∃ script, parse text = .ok script) ↔ ∃ l, Layout.empty.addLines 1 (rows text) = .ok l := by
  rw [parse_eq]
  cases Layout.empty.addLines 1 (rows text) with
  | error e =>
    constructor
    · rintro ⟨script, ⟨⟩⟩
    · rintro ⟨l, ⟨⟩⟩
  | ok l => exact ⟨fun _ => ⟨l, rfl⟩, fun _ => ⟨_, rfl⟩⟩

/-- A text is refused exactly if it has a line that offends after lines that are taken in. -/
lemma parse_eq_error_iff {text : List Char} {n : Nat} {cause : LayoutError.Cause} :
    parse text = .error ⟨n, cause⟩ ↔
      ∃ before raw after, rows text = before ++ raw :: after ∧ n = before.length + 1 ∧
        (∃ script, parse (ofRows before) = .ok script) ∧ Offends before (trim raw) cause := by
  rw [parse_eq_error_iff_addLines, Layout.addLines_eq_error_iff]
  have alone {before after : List (List Char)} {raw : List Char}
      (split : rows text = before ++ raw :: after) : rows (ofRows before) = before := by
    apply rows_ofRows
    intro r mem
    exact not_mem_of_mem_rows (split ▸ List.mem_append_left _ mem)
  constructor
  · rintro ⟨before, raw, after, l, split, read, fault⟩
    have account := Layout.openAfter_empty_addLines read
    obtain ⟨line, offends⟩ := (Layout.addText_eq_error_iff account _ raw).mp fault
    refine ⟨before, raw, after, split, line.trans (Nat.add_comm _ _), ?_, offends⟩
    rw [parse_eq_ok_iff_addLines, alone split]
    exact ⟨l, read⟩
  · rintro ⟨before, raw, after, split, rfl, parsed, offends⟩
    rw [parse_eq_ok_iff_addLines, alone split] at parsed
    obtain ⟨l, read⟩ := parsed
    refine ⟨before, raw, after, l, split, read, ?_⟩
    have account := Layout.openAfter_empty_addLines read
    exact (Layout.addText_eq_error_iff account _ raw).mpr ⟨Nat.add_comm _ _, offends⟩

end Script

/-- A script is refused exactly at its first line that is at fault, for what is wrong with it.
Later lines do not matter, and a script that is accepted is accepted up to any of its lines. -/
theorem parse_refuses_first_fault (text : List Char) :
    (∀ n cause, Script.parse text = .error ⟨n, cause⟩ ↔
      ∃ before raw after, Script.rows text = before ++ raw :: after ∧ n = before.length + 1 ∧
        (∃ script, Script.parse (Script.ofRows before) = .ok script) ∧
        Offends before (trim raw) cause) ∧
    (∀ n cause text', Script.parse text = .error ⟨n, cause⟩ →
      (Script.rows text').take n = (Script.rows text).take n →
      Script.parse text' = .error ⟨n, cause⟩) ∧
    ∀ script text', Script.parse text = .ok script → Script.rows text' <+: Script.rows text →
      ∃ script', Script.parse text' = .ok script' := by
  refine ⟨fun n cause => Script.parse_eq_error_iff, ?_, ?_⟩
  · intro n cause text' refused same
    obtain ⟨before, raw, after, split, rfl, parsed, offends⟩ := Script.parse_eq_error_iff.mp refused
    refine Script.parse_eq_error_iff.mpr
      ⟨before, raw, (Script.rows text').drop (before.length + 1), ?_, rfl, parsed, offends⟩
    -- the lines up to the fault are the same, and the fault is a matter of these alone
    have front : (Script.rows text').take (before.length + 1) = before ++ [raw] := by
      rw [same, split, List.take_length_add_append]
      rfl
    calc
      Script.rows text' = (before ++ [raw]) ++ (Script.rows text').drop (before.length + 1) := by
        rw [← front, List.take_append_drop]
      _ = _ := (List.append_cons _ _ _).symm
  · rintro script text' parsed ⟨after, split⟩
    obtain ⟨l, read⟩ := Script.parse_eq_ok_iff_addLines.mp ⟨script, parsed⟩
    rw [← split, Layout.addLines_append] at read
    refine Script.parse_eq_ok_iff_addLines.mpr ?_
    cases front : Layout.empty.addLines 1 (Script.rows text') with
    | error e =>
      rw [front] at read
      cases read
    | ok l' => exact ⟨l', rfl⟩

/-- Why a text is refused, if it is. -/
def refusal? (text : List Char) : Option LayoutError :=
  match Script.parse text with
  | .error e => some e
  | .ok _ => none

/-- The error that is computed is that of the text. -/
lemma parse_of_refusal? {text : List Char} {e : LayoutError} (h : refusal? text = some e) :
    Script.parse text = .error e := by
  rw [refusal?] at h
  split at h
  · next parsed => rw [parsed, Option.some.inj h]
  · cases h

/-- A text without an error is read. -/
lemma exists_parse_of_refusal? {text : List Char} (h : refusal? text = none) :
    ∃ script, Script.parse text = .ok script := by
  rw [refusal?] at h
  split at h
  · cases h
  · next script parsed => exact ⟨script, parsed⟩

/-- A branch that is turned twice. -/
def turnedTwice : List Char := "if (a)\nelse\n  while (b)\n  end\n\telse\nlet 1".toList

/-- A second `else` is refused, whatever comes after it. -/
theorem parse_refuses_first_fault_turned :
    Script.parse turnedTwice = .error ⟨5, .danglingElse⟩ ∧
    Offends ["if (a)".toList, "else".toList, "  while (b)".toList, "  end".toList] "else".toList
      .danglingElse ∧
    Script.parse "if (a)\nelse\n  while (b)\n  end\n\telse\nend\nend\nend".toList =
      .error ⟨5, .danglingElse⟩ ∧
    ∃ script, Script.parse "if (a)\nelse\n  while (b)".toList = .ok script := by
  have refused : Script.parse turnedTwice = .error ⟨5, .danglingElse⟩ :=
    parse_of_refusal? (by decide +kernel)
  obtain ⟨faults, front, -⟩ := parse_refuses_first_fault turnedTwice
  have rows : Script.rows turnedTwice =
      ["if (a)".toList, "else".toList, "  while (b)".toList, "  end".toList] ++
        "\telse".toList :: ["let 1".toList] := by
    decide +kernel
  obtain ⟨before, raw, after, split, count, -, offends⟩ := (faults 5 .danglingElse).mp refused
  obtain ⟨rfl, rest⟩ := List.append_inj (rows.symm.trans split) (Nat.succ.inj count)
  obtain ⟨rfl, -⟩ := List.cons.inj rest
  have word : trim "\telse".toList = "else".toList := by decide +kernel
  rw [word] at offends
  refine ⟨refused, offends, front 5 .danglingElse _ refused (by decide +kernel), ?_⟩
  obtain ⟨script, parsed⟩ :
      ∃ script, Script.parse "if (a)\nelse\n  while (b)\n  end".toList = .ok script :=
    exists_parse_of_refusal? (by decide +kernel)
  obtain ⟨-, -, accepted⟩ :=
    parse_refuses_first_fault "if (a)\nelse\n  while (b)\n  end".toList
  exact accepted script _ parsed ⟨["  end".toList], by decide +kernel⟩

end Linework
