import Linework.Proofs.LineText

/-!
# Well-formed lines

The lines that `Line.read` takes, as data. A `Sentence` is the wording of a line, down to the blanks
within it; `Sentence.text` writes it and `Sentence.meaning` is what it says. Reading takes exactly
the texts of sentences, each of which has only one.
-/

namespace Linework

open Text

/-- A text that begins with a keyword, at the end of which stands a blank, a parenthesis or the
end. -/
def Opens (keyword : String) (cs : List Char) : Prop :=
  ∃ rest, cs = keyword.toList ++ rest ∧ ∀ c ∈ rest.head?, isBlank c = true ∨ c = '('

/-- A keyword before a blank, a parenthesis or nothing is one. -/
lemma afterKeyword?_append {keyword : String} {rest : List Char}
    (h : ∀ c ∈ rest.head?, isBlank c = true ∨ c = '(') :
    Line.afterKeyword? keyword (keyword.toList ++ rest) = some (trimStart rest) := by
  have here : keyword.toList.isPrefixOf (keyword.toList ++ rest) = true :=
    List.isPrefixOf_iff_prefix.mpr (List.prefix_append _ _)
  rw [Line.afterKeyword?, if_pos here, ← String.length_toList, List.drop_left]
  cases rest with
  | nil => rfl
  | cons c rest =>
    have ends : (isBlank c || decide (c = '(')) = true := by simpa using h c rfl
    simp only [ends, if_true]

/-- What is read after a keyword is what follows it. -/
lemma eq_of_afterKeyword? {keyword : String} {cs r : List Char}
    (h : Line.afterKeyword? keyword cs = some r) :
    ∃ rest, cs = keyword.toList ++ rest ∧ (∀ c ∈ rest.head?, isBlank c = true ∨ c = '(') ∧
      r = trimStart rest := by
  rw [Line.afterKeyword?] at h
  split at h
  · next here =>
    obtain ⟨rest, rfl⟩ := List.isPrefixOf_iff_prefix.mp here
    rw [← String.length_toList, List.drop_left] at h
    refine ⟨rest, rfl, ?_⟩
    cases rest with
    | nil =>
      cases h
      exact ⟨nofun, rfl⟩
    | cons c rest =>
      simp only at h
      split at h
      · next ends =>
        cases h
        refine ⟨?_, rfl⟩
        rintro d ⟨⟩
        simpa using ends
      · cases h
  · cases h

/-- Nothing is read after a keyword that does not open the line. -/
lemma afterKeyword?_eq_none {keyword : String} {cs : List Char} :
    Line.afterKeyword? keyword cs = none ↔ ¬ Opens keyword cs := by
  constructor
  · rintro none ⟨rest, rfl, ends⟩
    rw [afterKeyword?_append ends] at none
    cases none
  · intro no
    cases h : Line.afterKeyword? keyword cs with
    | none => rfl
    | some r =>
      obtain ⟨rest, split, ends, -⟩ := eq_of_afterKeyword? h
      exact absurd ⟨rest, split, ends⟩ no

/-- A text is cut at the first separator. -/
lemma cut?_append {separator : Char} {before : List Char} (h : separator ∉ before)
    (after : List Char) :
    Line.cut? separator (before ++ separator :: after) = some (before, after) := by
  have all : ∀ c ∈ before, decide (c ≠ separator) = true := by
    intro c hc
    rw [decide_eq_true_eq]
    rintro rfl
    exact h hc
  rw [Line.cut?, List.dropWhile_append_of_pos all, List.takeWhile_append_of_pos all]
  simp

/-- A text is put together from what was cut. -/
lemma eq_of_cut? {separator : Char} {cs before after : List Char}
    (h : Line.cut? separator cs = some (before, after)) : cs = before ++ separator :: after := by
  rw [Line.cut?] at h
  split at h
  · cases h
  · next c rest found =>
    cases h
    have head := List.head?_dropWhile_not (fun c => decide (c ≠ separator)) cs
    rw [found] at head
    have same : c = separator := by simpa using head
    rw [← same, ← found, same]
    exact List.takeWhile_append_dropWhile.symm

/-- Ranges that lie apart have no code point in common. -/
lemma not_contains_of_apart {n : Nat} {rs rs' : Ranges}
    (apart : rs.all (fun r => rs'.all fun r' => r.2 < r'.1 || r'.2 < r.1) = true)
    (h : Ranges.contains n rs = true) : Ranges.contains n rs' = false := by
  rw [← Bool.not_eq_true]
  intro h'
  obtain ⟨r, mem, low, high⟩ := Ranges.exists_mem_of_contains h
  obtain ⟨r', mem', low', high'⟩ := Ranges.exists_mem_of_contains h'
  have apart := List.all_eq_true.mp (List.all_eq_true.mp apart r mem) r' mem'
  rw [Bool.or_eq_true, decide_eq_true_eq, decide_eq_true_eq] at apart
  omega

/-- No blank is a letter or a number. -/
lemma isBlank_of_isNameChar {c : Char} (h : Line.isNameChar c = true) : isBlank c = false := by
  rw [Line.isNameChar, isAlphanumeric, Bool.or_eq_true, Bool.or_eq_true] at h
  rcases h with (letter | number) | underscore
  · exact not_contains_of_apart (by decide +kernel) letter
  · exact not_contains_of_apart (by decide +kernel) number
  · rw [decide_eq_true_eq] at underscore
    subst underscore
    decide

/-- Characters that mean something outside of names. -/
def signs : List Char :=
  ['\n', '"', '(', ')', '[', ']', ':', ',', '-', '+', '*', '/', '%', '^', '!', '<', '>', '=', '&',
    '|']

/-- No sign is a letter or a number. -/
lemma isNameChar_of_mem_signs {c : Char} (mem : c ∈ signs) : Line.isNameChar c = false := by
  -- the tables of letters and numbers are searched once for all signs
  have others : signs.all (fun c => !Line.isNameChar c) = true := by decide +kernel
  simpa using List.all_eq_true.mp others c mem

/-- No letter or number is a sign. -/
lemma not_mem_signs {c : Char} (letter : Line.isNameChar c = true) : c ∉ signs := by
  intro mem
  rw [isNameChar_of_mem_signs mem] at letter
  cases letter

/-- A name consists of characters of names. -/
lemma isNameChar_of_isName {name : List Char} (h : Line.isName name = true) :
    ∀ c ∈ name, Line.isNameChar c = true := by
  cases name with
  | nil => exact List.forall_mem_nil _
  | cons first rest =>
    rw [Line.isName, Bool.and_eq_true, List.all_eq_true] at h
    intro c hc
    rcases List.mem_cons.mp hc with rfl | hc
    · have start := h.1
      rw [Bool.or_eq_true] at start
      rcases start with letter | underscore
      · simp [Line.isNameChar, isAlphanumeric, letter]
      · rw [Line.isNameChar, underscore, Bool.or_true]
    · exact h.2 c hc

/-- No name has a sign. -/
lemma sign_not_mem {name : List Char} (h : Line.isName name = true) {c : Char} (sign : c ∈ signs) :
    c ∉ name :=
  fun mem => not_mem_signs (isNameChar_of_isName h c mem) sign

/-- No name has blanks around it. -/
lemma trimmed_of_isName {name : List Char} (h : Line.isName name = true) : Trimmed name where
  first c hc := isBlank_of_isNameChar (isNameChar_of_isName h c (List.mem_of_mem_head? hc))
  last c hc := isBlank_of_isNameChar (isNameChar_of_isName h c (List.mem_of_mem_getLast? hc))

/-- The condition of a branch or loop: blanks, and then a text in parentheses. -/
@[ext] structure Condition where
  gap : List Char
  inner : List Char
  blank : Blank gap

namespace Condition

/-- The text in its parentheses. -/
def chars (c : Condition) : List Char := '(' :: (c.inner ++ [')'])

/-- What the condition is read as. -/
def formula (c : Condition) : Formula := Formula.compile c.chars

end Condition

/-- The head of a function: blanks, its name, blanks, and a text in parentheses. -/
@[ext] structure Header where
  gap : List Char
  name : List Char
  space : List Char
  inner : List Char
  gap_ne_nil : gap ≠ []
  blank_gap : Blank gap
  isName : Line.isName name = true
  blank_space : Blank space

/-- The head after its first blanks. -/
def Header.chars (h : Header) : List Char := h.name ++ (h.space ++ '(' :: (h.inner ++ [')']))

/-- A line that fills a statement: it is no other kind of line, and is read as an instruction. -/
@[ext] structure Plain where
  chars : List Char
  instruction : Instruction
  bare : Bare chars
  ne_finish : chars ≠ "end".toList
  ne_otherwise : chars ≠ "else".toList
  no_function : ¬ Opens "function" chars
  no_branch : ¬ Opens "if" chars
  no_loop : ¬ Opens "while" chars
  reads : Line.readInstruction chars = .ok instruction

/-- The wording of a line. -/
inductive Sentence where
  | finish
  | otherwise
  | function (header : Header)
  | branch (condition : Condition)
  | loop (condition : Condition)
  | plain (statement : Plain)

namespace Sentence

/-- How a sentence is written. -/
def text : Sentence → List Char
  | finish => "end".toList
  | otherwise => "else".toList
  | function h => "function".toList ++ (h.gap ++ h.chars)
  | branch c => "if".toList ++ (c.gap ++ c.chars)
  | loop c => "while".toList ++ (c.gap ++ c.chars)
  | plain p => p.chars

/-- What a sentence says. -/
def meaning : Sentence → Line
  | finish => .finish
  | otherwise => .otherwise
  | function h => .function (String.ofList h.name) (Line.readParams h.inner)
  | branch c => .branch c.formula
  | loop c => .loop c.formula
  | plain p => .plain p.instruction

/-- How an end is written. -/
@[simp] lemma text_finish : finish.text = "end".toList := rfl

/-- How an `else` is written. -/
@[simp] lemma text_otherwise : otherwise.text = "else".toList := rfl

/-- How the head of a function is written. -/
@[simp] lemma text_function (h : Header) :
    (function h).text = "function".toList ++ (h.gap ++ h.chars) := rfl

/-- How the head of a branch is written. -/
@[simp] lemma text_branch (c : Condition) :
    (branch c).text = "if".toList ++ (c.gap ++ c.chars) := rfl

/-- How the head of a loop is written. -/
@[simp] lemma text_loop (c : Condition) :
    (loop c).text = "while".toList ++ (c.gap ++ c.chars) := rfl

/-- How a statement of one line is written. -/
@[simp] lemma text_plain (p : Plain) : (plain p).text = p.chars := rfl

end Sentence

/-- A line is bare if its first and its last character are no blanks and it is no comment. -/
lemma bare_of_ends {cs : List Char} {c d : Char} (head : cs.head? = some c)
    (last : cs.getLast? = some d) (ink : isBlank c = false ∧ isBlank d = false ∧ c ≠ '/') :
    Bare cs where
  first e he := by
    rw [head] at he
    cases he
    exact ink.1
  last e he := by
    rw [last] at he
    cases he
    exact ink.2.1
  ne_nil := by
    rintro rfl
    cases head
  loud := by
    rintro ⟨rest, rfl⟩
    cases head
    exact ink.2.2 rfl

/-- The head of a block ends with a parenthesis. -/
lemma getLast?_parenthesis (cs ds es : List Char) :
    (cs ++ (ds ++ '(' :: (es ++ [')']))).getLast? = some ')' := by
  have split : cs ++ (ds ++ '(' :: (es ++ [')'])) = (cs ++ (ds ++ '(' :: es)) ++ [')'] := by simp
  rw [split, List.getLast?_concat]

/-- The head of a function ends with a parenthesis. -/
lemma Header.getLast?_chars (h : Header) (cs : List Char) :
    (cs ++ h.chars).getLast? = some ')' := by
  rw [chars, ← List.append_assoc]
  exact getLast?_parenthesis _ _ _

/-- Every sentence says something and has no blanks around it. -/
lemma Sentence.bare (s : Sentence) : Bare s.text := by
  cases s with
  | finish => exact bare_of_ends (c := 'e') (d := 'd') (by simp) (by simp) (by decide)
  | otherwise => exact bare_of_ends (c := 'e') (d := 'e') (by simp) (by simp) (by decide)
  | function h =>
    have last : ("function".toList ++ (h.gap ++ h.chars)).getLast? = some ')' := by
      rw [← List.append_assoc]
      exact h.getLast?_chars _
    exact bare_of_ends (c := 'f') (by simp) last (by decide)
  | branch c => exact bare_of_ends (c := 'i') (by simp) (getLast?_parenthesis _ _ _) (by decide)
  | loop c => exact bare_of_ends (c := 'w') (by simp) (getLast?_parenthesis _ _ _) (by decide)
  | plain p => exact p.bare

/-- A text does not open with a keyword that has another first letter. -/
lemma not_opens {keyword : String} {cs : List Char} {c d : Char}
    (begins : keyword.toList.head? = some d) (head : cs.head? = some c) (other : c ≠ d) :
    ¬ Opens keyword cs := by
  rintro ⟨rest, rfl, -⟩
  cases letters : keyword.toList with
  | nil =>
    rw [letters] at begins
    cases begins
  | cons e es =>
    rw [letters] at begins head
    cases begins
    cases head
    exact other rfl

/-- A condition is read as its formula. -/
lemma readCondition?_chars (c : Condition) : Line.readCondition? c.chars = some c.formula := by
  rw [Line.readCondition?, if_pos]
  · rfl
  · exact ⟨rfl, getLast?_parenthesis [] [] c.inner⟩

/-- The head of a function is read as its name and parameters. -/
lemma readHead?_chars (h : Header) :
    Line.readHead? h.chars = some (String.ofList h.name, Line.readParams h.inner) := by
  have no_parenthesis : '(' ∉ h.name ++ h.space := by
    rw [List.mem_append]
    rintro (mem | mem)
    · exact sign_not_mem h.isName (by decide) mem
    · exact absurd (h.blank_space _ mem) (by decide)
  have found : Line.cut? '(' h.chars = some (h.name ++ h.space, h.inner ++ [')']) := by
    rw [Header.chars, ← List.append_assoc]
    exact cut?_append no_parenthesis _
  have name : trim (h.name ++ h.space) = h.name :=
    trim_padded (List.forall_mem_nil _) h.blank_space (trimmed_of_isName h.isName)
  rw [Line.readHead?, found]
  simp only [name]
  rw [if_pos ⟨h.getLast?_chars [], h.isName⟩, List.dropLast_concat]

/-- What stands after a keyword and blanks. -/
lemma afterKeyword?_gap {keyword : String} {gap cs : List Char} (blank : Blank gap)
    (first : ∀ c ∈ cs.head?, isBlank c = false) (ends : gap ≠ [] ∨ cs.head? = some '(') :
    Line.afterKeyword? keyword (keyword.toList ++ (gap ++ cs)) = some cs := by
  rw [afterKeyword?_append, trimStart_blank_append blank, trimStart_eq_self first]
  intro c hc
  cases gap with
  | nil =>
    obtain no | parenthesis := ends
    · exact absurd rfl no
    · rw [List.nil_append, parenthesis] at hc
      cases hc
      exact .inr rfl
  | cons d gap =>
    cases hc
    exact .inl (blank c List.mem_cons_self)

/-- A condition does not begin with a blank. -/
lemma Condition.first (c : Condition) : ∀ d ∈ c.chars.head?, isBlank d = false := by
  rintro d ⟨⟩
  decide

/-- The head of a function does not begin with a blank. -/
lemma Header.first (h : Header) : ∀ c ∈ h.chars.head?, isBlank c = false := by
  intro c hc
  have trimmed := trimmed_of_isName h.isName
  cases name : h.name with
  | nil =>
    have := h.isName
    rw [name] at this
    cases this
  | cons d ds =>
    rw [name] at trimmed
    rw [chars, name] at hc
    exact trimmed.first c hc

/-- Texts with different last characters are different. -/
lemma ne_of_getLast? {cs ds : List Char} {c d : Char} (last : cs.getLast? = some c)
    (last' : ds.getLast? = some d) (other : c ≠ d) : cs ≠ ds := by
  rintro rfl
  rw [last] at last'
  cases last'
  exact other rfl

/-- What ends with a parenthesis is neither `end` nor `else`. -/
lemma ne_words_of_parenthesis {cs : List Char} (last : cs.getLast? = some ')') :
    cs ≠ "end".toList ∧ cs ≠ "else".toList :=
  ⟨ne_of_getLast? last (d := 'd') (by simp) (by decide),
    ne_of_getLast? last (d := 'e') (by simp) (by decide)⟩

/-- A sentence is read as what it says. -/
lemma Sentence.read_text (s : Sentence) : Line.read s.text = .ok s.meaning := by
  cases s with
  | finish => simp [Line.read, meaning]
  | otherwise => simp [Line.read, meaning]
  | function h =>
    -- it ends with a parenthesis, so it is neither `end` nor `else`
    have last : (function h).text.getLast? = some ')' := by
      rw [text_function, ← List.append_assoc]
      exact h.getLast?_chars _
    obtain ⟨no_finish, no_otherwise⟩ := ne_words_of_parenthesis last
    rw [Line.read, if_neg no_finish, if_neg no_otherwise, text_function,
      afterKeyword?_gap h.blank_gap h.first (.inl h.gap_ne_nil)]
    simp only [readHead?_chars, meaning]
  | branch c =>
    have last : (branch c).text.getLast? = some ')' := getLast?_parenthesis _ _ _
    obtain ⟨no_finish, no_otherwise⟩ := ne_words_of_parenthesis last
    -- the first letters of the keywords are different
    have no_function : Line.afterKeyword? "function" (branch c).text = none :=
      afterKeyword?_eq_none.mpr (not_opens (c := 'i') (d := 'f') (by simp) (by simp) (by decide))
    rw [Line.read, if_neg no_finish, if_neg no_otherwise, no_function, text_branch,
      afterKeyword?_gap c.blank c.first (.inr rfl)]
    simp only [readCondition?_chars, meaning]
  | loop c =>
    have last : (loop c).text.getLast? = some ')' := getLast?_parenthesis _ _ _
    obtain ⟨no_finish, no_otherwise⟩ := ne_words_of_parenthesis last
    have no_function : Line.afterKeyword? "function" (loop c).text = none :=
      afterKeyword?_eq_none.mpr (not_opens (c := 'w') (d := 'f') (by simp) (by simp) (by decide))
    have no_branch : Line.afterKeyword? "if" (loop c).text = none :=
      afterKeyword?_eq_none.mpr (not_opens (c := 'w') (d := 'i') (by simp) (by simp) (by decide))
    rw [Line.read, if_neg no_finish, if_neg no_otherwise, no_function, no_branch, text_loop,
      afterKeyword?_gap c.blank c.first (.inr rfl)]
    simp only [readCondition?_chars, meaning]
  | plain p =>
    rw [Line.read, text_plain, if_neg p.ne_finish, if_neg p.ne_otherwise,
      afterKeyword?_eq_none.mpr p.no_function, afterKeyword?_eq_none.mpr p.no_branch,
      afterKeyword?_eq_none.mpr p.no_loop, p.reads]
    rfl

/-- What is read as a condition stands in parentheses. -/
lemma readCondition?_eq_some {cs : List Char} {f : Formula}
    (h : Line.readCondition? cs = some f) :
    ∃ inner, cs = '(' :: (inner ++ [')']) ∧ f = Formula.compile cs := by
  rw [Line.readCondition?] at h
  split at h
  · next ends =>
    cases h
    obtain ⟨head, last⟩ := ends
    obtain ⟨init, rfl⟩ := List.getLast?_eq_some_iff.mp last
    cases init with
    | nil => cases head
    | cons c inner =>
      cases head
      exact ⟨inner, rfl, rfl⟩
  · cases h

/-- There are no blanks before a text that does not begin with one. -/
lemma eq_nil_of_blank {left cs : List Char} (blank : Blank left)
    (first : ∀ c ∈ (left ++ cs).head?, isBlank c = false) : left = [] := by
  cases left with
  | nil => rfl
  | cons c left =>
    have ink := first c rfl
    rw [blank c List.mem_cons_self] at ink
    cases ink

/-- What is read as the head of a function is a name with parameters in parentheses. -/
lemma readHead?_eq_some {cs : List Char} {name : String} {params : List String}
    (first : ∀ c ∈ cs.head?, isBlank c = false)
    (h : Line.readHead? cs = some (name, params)) :
    ∃ letters space inner, Line.isName letters = true ∧ Blank space ∧
      cs = letters ++ (space ++ '(' :: (inner ++ [')'])) ∧
      name = String.ofList letters ∧ params = Line.readParams inner := by
  rw [Line.readHead?] at h
  split at h
  · cases h
  · next before after found =>
    simp only at h
    split at h
    · next ok =>
      cases h
      obtain ⟨last, isName⟩ := ok
      obtain rfl := eq_of_cut? found
      obtain ⟨left, space, blank, blank', padded, -⟩ := trim_spec before
      generalize trim before = letters at padded isName ⊢
      subst padded
      obtain rfl : left = [] := by
        rw [List.append_assoc, List.append_assoc] at first
        exact eq_nil_of_blank blank first
      obtain rfl | ⟨inner, d, rfl⟩ := List.eq_nil_or_concat after
      · rw [List.getLast?_concat] at last
        cases last
      · rw [List.concat_eq_append, ← List.cons_append, ← List.append_assoc,
          List.getLast?_concat] at last
        cases last
        refine ⟨letters, space, inner, isName, blank', ?_, rfl, ?_⟩
        · simp
        · rw [List.concat_eq_append, List.dropLast_concat]
    · cases h

/-- The text after a keyword, with the blanks before it. -/
lemma split_of_afterKeyword? {keyword : String} {cs r : List Char}
    (h : Line.afterKeyword? keyword cs = some r) :
    ∃ gap, Blank gap ∧ cs = keyword.toList ++ (gap ++ r) ∧
      (∀ c ∈ r.head?, isBlank c = false) ∧ (gap = [] → ∀ c ∈ r.head?, c = '(') := by
  obtain ⟨rest, rfl, ends, rfl⟩ := eq_of_afterKeyword? h
  obtain ⟨gap, blank, split, first⟩ := trimStart_spec rest
  refine ⟨gap, blank, by rw [← split], first, ?_⟩
  rintro rfl c hc
  rw [List.nil_append] at split
  rw [← split] at hc first
  have := ends c hc
  rw [first c hc] at this
  exact this.resolve_left nofun

/-- Before a name a keyword is followed by a gap. -/
lemma gap_ne_nil_of_isName {gap rest name more : List Char}
    (gapless : gap = [] → ∀ c ∈ rest.head?, c = '(') (isName : Line.isName name = true)
    (split : rest = name ++ more) : gap ≠ [] := by
  -- without a gap only a parenthesis can follow the keyword, and no name begins with one
  intro no_gap
  subst split
  cases name with
  | nil => cases isName
  | cons c name =>
    obtain rfl : c = '(' := gapless no_gap c rfl
    exact sign_not_mem isName (by decide) List.mem_cons_self

/-- What is read is a sentence. -/
lemma exists_sentence_of_read {cs : List Char} (bare : Bare cs) {said : Line}
    (h : Line.read cs = .ok said) : ∃ s : Sentence, s.text = cs ∧ s.meaning = said := by
  -- the words are tried in the order of `Line.read`; what remains is opened by none of them
  rw [Line.read] at h
  split at h
  · next finish =>
    cases h
    exact ⟨.finish, finish.symm, rfl⟩
  next no_finish =>
  split at h
  · next otherwise =>
    cases h
    exact ⟨.otherwise, otherwise.symm, rfl⟩
  next no_otherwise =>
  split at h
  · next head opens =>
    obtain ⟨gap, blank, rfl, first, gapless⟩ := split_of_afterKeyword? opens
    split at h
    · next name params reads =>
      cases h
      obtain ⟨letters, space, inner, isName, blank', rfl, rfl, rfl⟩ :=
        readHead?_eq_some first reads
      have some_gap := gap_ne_nil_of_isName gapless isName rfl
      exact ⟨.function ⟨gap, letters, space, inner, some_gap, blank, isName, blank'⟩, rfl, rfl⟩
    · cases h
  next no_function =>
  split at h
  · next rest opens =>
    obtain ⟨gap, blank, rfl, -⟩ := split_of_afterKeyword? opens
    split at h
    · next condition reads =>
      cases h
      obtain ⟨inner, rfl, rfl⟩ := readCondition?_eq_some reads
      exact ⟨.branch ⟨gap, inner, blank⟩, rfl, rfl⟩
    · cases h
  next no_branch =>
  split at h
  · next rest opens =>
    obtain ⟨gap, blank, rfl, -⟩ := split_of_afterKeyword? opens
    split at h
    · next condition reads =>
      cases h
      obtain ⟨inner, rfl, rfl⟩ := readCondition?_eq_some reads
      exact ⟨.loop ⟨gap, inner, blank⟩, rfl, rfl⟩
    · cases h
  next no_loop =>
  cases reads : Line.readInstruction cs with
  | error cause =>
    rw [reads] at h
    cases h
  | ok instruction =>
    rw [reads] at h
    cases h
    exact ⟨.plain ⟨cs, instruction, bare, no_finish, no_otherwise,
      afterKeyword?_eq_none.mp no_function, afterKeyword?_eq_none.mp no_branch,
      afterKeyword?_eq_none.mp no_loop, reads⟩, rfl, rfl⟩

/-- The characters of a condition determine it. -/
lemma Condition.eq_of_chars {c c' : Condition} (h : c.gap ++ c.chars = c'.gap ++ c'.chars) :
    c = c' := by
  obtain ⟨gap_eq, chars_eq⟩ := blank_append_inj c.blank c'.blank c.first c'.first h
  rw [chars, chars, List.cons.injEq] at chars_eq
  exact Condition.ext gap_eq (List.append_cancel_right chars_eq.2)

/-- The characters of the head of a function determine it. -/
lemma Header.eq_of_chars {h h' : Header} (name_eq : h.name = h'.name)
    (same : h.gap ++ h.chars = h'.gap ++ h'.chars) : h = h' := by
  obtain ⟨gap_eq, chars_eq⟩ := blank_append_inj h.blank_gap h'.blank_gap h.first h'.first same
  rw [chars, chars, name_eq] at chars_eq
  have parenthesis (cs : List Char) : ∀ c ∈ ('(' :: cs).head?, isBlank c = false := by
    rintro c ⟨⟩
    decide
  obtain ⟨space_eq, inner_eq⟩ := blank_append_inj h.blank_space h'.blank_space (parenthesis _)
    (parenthesis _) (List.append_cancel_left chars_eq)
  rw [List.cons.injEq] at inner_eq
  exact Header.ext gap_eq name_eq space_eq (List.append_cancel_right inner_eq.2)

/-- A text has only one wording. -/
lemma Sentence.text_injective {s s' : Sentence} (h : s.text = s'.text) : s = s' := by
  have meaning_eq : s.meaning = s'.meaning := by
    have read := s.read_text
    rw [h, s'.read_text] at read
    exact (Except.ok.inj read).symm
  -- what a sentence says tells which kind it is
  cases s with
  | finish =>
    cases s' with
    | finish => rfl
    | _ => cases meaning_eq
  | otherwise =>
    cases s' with
    | otherwise => rfl
    | _ => cases meaning_eq
  | function header =>
    cases s' with
    | function header' =>
      have name_eq := String.ofList_injective (Line.function.inj meaning_eq).1
      exact congrArg function (Header.eq_of_chars name_eq (List.append_cancel_left h))
    | _ => cases meaning_eq
  | branch c =>
    cases s' with
    | branch c' => exact congrArg branch (Condition.eq_of_chars (List.append_cancel_left h))
    | _ => cases meaning_eq
  | loop c =>
    cases s' with
    | loop c' => exact congrArg loop (Condition.eq_of_chars (List.append_cancel_left h))
    | _ => cases meaning_eq
  | plain p =>
    cases s' with
    | plain p' => exact congrArg plain (Plain.ext h (Line.plain.inj meaning_eq))
    | _ => cases meaning_eq

end Linework
