import Linework.Proofs.Rendering

/-!
# Lines that are assignments

A line is an assignment exactly if it has the shape of one: a name, blanks, an operator and a right
side that does not go on with a second `=`. A word that begins another kind of line is no name here
once a blank follows it. The shape of a line is unique.
-/

namespace Linework

open Text

/-- How an assignment is written. -/
def AssignOp.sign : AssignOp → List Char
  | assign => ['=']
  | add => ['+', '=']
  | subtract => ['-', '=']
  | multiply => ['*', '=']
  | divide => ['/', '=']
  | remainder => ['%', '=']

/-- The words that begin a line of another kind if a blank follows. -/
def Line.openers : List String := ["function", "if", "while", "return", "let"]

/-- The shape of an assignment: a name, blanks, an operator and the right side. -/
@[ext] structure Assignment where
  name : List Char
  gap : List Char
  op : AssignOp
  value : List Char
  isName : Line.isName name = true
  blank : Blank gap
  single : (trimStart value).head? ≠ some '='
  no_opener : gap ≠ [] → String.ofList name ∉ Line.openers

namespace Assignment

/-- What follows the name. -/
def tail (a : Assignment) : List Char := a.gap ++ (a.op.sign ++ a.value)

/-- The whole line. -/
def chars (a : Assignment) : List Char := a.name ++ a.tail

/-- What the line does. -/
def instruction (a : Assignment) : Instruction :=
  .assign (String.ofList a.name) a.op (Formula.compile a.value)

end Assignment

/-- An operator is no part of a name, and not what ends a keyword. -/
lemma AssignOp.head?_sign (op : AssignOp) (value : List Char) :
    ∀ c ∈ (op.sign ++ value).head?, Line.isNameChar c = false ∧ isBlank c = false ∧ c ≠ '(' := by
  cases op <;>
  · rintro c ⟨⟩
    exact ⟨isNameChar_of_mem_signs (by decide), by decide, by decide⟩

/-- A sign is read as its operator, up to the value behind it. -/
lemma assignOp?_sign (op : AssignOp) (value : List Char) :
    Line.assignOp? (op.sign ++ value) = some (op, value) := by
  cases op <;> rfl

/-- The sign of an operator of two characters. -/
lemma AssignOp.sign_of_ofChar? {c : Char} {op : AssignOp} (h : AssignOp.ofChar? c = some op) :
    op.sign = [c, '='] := by
  revert h
  fun_cases AssignOp.ofChar? c with
  | case6 => rintro ⟨⟩
  | _ =>
    rintro ⟨⟩
    rfl

/-- What is read as an operator is its sign. -/
lemma eq_sign_of_assignOp? {cs value : List Char} {op : AssignOp}
    (h : Line.assignOp? cs = some (op, value)) : cs = op.sign ++ value := by
  revert h
  fun_cases Line.assignOp? cs with
  | case1 rest =>
    rintro ⟨⟩
    rfl
  | case2 c rest =>
    intro h
    obtain ⟨found, known, ⟨⟩⟩ := Option.map_eq_some_iff.mp h
    rw [AssignOp.sign_of_ofChar? known]
    rfl
  | case3 => rintro ⟨⟩

/-- A text opens with every word that blanks follow. -/
lemma opens_of_gap (word : List Char) {gap : List Char} (blank : Blank gap) (some_gap : gap ≠ [])
    (rest : List Char) : Opens (String.ofList word) (word ++ (gap ++ rest)) := by
  refine ⟨gap ++ rest, by rw [String.toList_ofList], ?_⟩
  intro c first
  rw [List.head?_append_of_ne_nil _ some_gap] at first
  exact .inl (blank c (List.mem_of_mem_head? first))

/-- A blank ends a name. -/
lemma isNameChar_of_isBlank {c : Char} (blank : isBlank c = true) : Line.isNameChar c = false := by
  rw [← Bool.not_eq_true]
  intro letter
  rw [isBlank_of_isNameChar letter] at blank
  cases blank

namespace Assignment

variable {a a' : Assignment}

/-- No sign begins with a blank. -/
lemma first_sign (a : Assignment) : ∀ c ∈ (a.op.sign ++ a.value).head?, isBlank c = false :=
  fun c first => (a.op.head?_sign a.value c first).2.1

/-- What follows the name is not part of it. -/
lemma head?_tail (a : Assignment) : ∀ c ∈ a.tail.head?, Line.isNameChar c = false := by
  intro c first
  rw [tail] at first
  cases gap : a.gap with
  | nil =>
    rw [gap] at first
    exact (a.op.head?_sign a.value c first).1
  | cons d gap' =>
    rw [gap] at first
    cases first
    exact isNameChar_of_isBlank (a.blank c (gap ▸ List.mem_cons_self))

/-- A line has only one shape. -/
lemma eq_of_chars (h : a.chars = a'.chars) : a = a' := by
  obtain ⟨name, tail⟩ := word_append_inj (isNameChar_of_isName a.isName)
    (isNameChar_of_isName a'.isName) a.head?_tail a'.head?_tail h
  obtain ⟨gap, sign⟩ := blank_append_inj a.blank a'.blank a.first_sign a'.first_sign tail
  have parts := assignOp?_sign a.op a.value
  rw [sign, assignOp?_sign] at parts
  obtain ⟨op, value⟩ := Prod.mk.inj (Option.some.inj parts)
  exact Assignment.ext name gap op.symm value.symm

/-- Every assignment has an equals sign. -/
lemma equals_mem (a : Assignment) : '=' ∈ a.chars := by
  have mem : '=' ∈ a.op.sign := by cases a.op <;> simp [AssignOp.sign]
  simp [chars, tail, mem]

/-- Words without `=` are no assignments. -/
lemma chars_ne {word : List Char} (none : '=' ∉ word) : a.chars ≠ word :=
  fun same => none (same ▸ a.equals_mem)

/-- A line opens with a keyword that is its name, if blanks follow. -/
lemma opens_iff {keyword : String} (chars : ∀ c ∈ keyword.toList, Line.isNameChar c = true) :
    Opens keyword a.chars ↔ String.ofList a.name = keyword ∧ a.gap ≠ [] := by
  constructor
  · rintro ⟨rest, split, ends⟩
    have ends' : ∀ c ∈ rest.head?, Line.isNameChar c = false := by
      intro c first
      obtain blank | rfl := ends c first
      · exact isNameChar_of_isBlank blank
      · exact isNameChar_of_mem_signs (by decide)
    obtain ⟨name, rfl⟩ := word_append_inj (isNameChar_of_isName a.isName) chars a.head?_tail ends'
      split
    refine ⟨by rw [name, String.ofList_toList], fun no_gap => ?_⟩
    rw [tail, no_gap, List.nil_append] at ends
    obtain ⟨c, first⟩ : ∃ c, (a.op.sign ++ a.value).head? = some c := by
      cases a.op <;> exact ⟨_, rfl⟩
    obtain ⟨-, solid, other⟩ := a.op.head?_sign a.value c first
    obtain blank | parenthesis := ends c first
    · rw [solid] at blank
      cases blank
    · exact other parenthesis
  · rintro ⟨rfl, some_gap⟩
    exact opens_of_gap a.name a.blank some_gap _

end Assignment

/-- Keywords are names. -/
lemma isNameChar_of_opener {keyword : String} (mem : keyword ∈ Line.openers) :
    ∀ c ∈ keyword.toList, Line.isNameChar c = true := by
  have words : Line.openers.all (fun word => word.toList.all Line.isNameChar) = true := by
    decide +kernel
  exact List.all_eq_true.mp (List.all_eq_true.mp words keyword mem)

/-- An assignment to a longer name is not taken for a keyword. -/
lemma Assignment.not_opens (a : Assignment) {keyword : String} (mem : keyword ∈ Line.openers) :
    Line.afterKeyword? keyword a.chars = none := by
  rw [afterKeyword?_eq_none, opens_iff (isNameChar_of_opener mem)]
  rintro ⟨rfl, some_gap⟩
  exact a.no_opener some_gap mem

/-- An assignment is split into its parts. -/
lemma Assignment.splitAssignment? (a : Assignment) :
    Line.splitAssignment? a.chars = some (a.name, a.op, a.value) := by
  obtain ⟨taken, dropped⟩ := takeWhile_word (isNameChar_of_isName a.isName) a.head?_tail
  rw [Line.splitAssignment?, chars, taken, dropped, tail, trimStart_blank_append a.blank,
    trimStart_eq_self a.first_sign, assignOp?_sign, if_pos a.isName]
  exact if_neg a.single

/-- An assignment is read as one. -/
lemma Assignment.read_chars (a : Assignment) : Line.read a.chars = .ok (.plain a.instruction) := by
  rw [Line.read, if_neg (chars_ne (by simp)), if_neg (chars_ne (by simp)),
    a.not_opens (by decide), a.not_opens (by decide), a.not_opens (by decide),
    Line.readInstruction, if_neg (chars_ne (by simp)), if_neg (chars_ne (by simp)),
    a.not_opens (by decide), a.not_opens (by decide), a.splitAssignment?]
  rfl

/-- What is taken apart as an assignment has the shape of one, up to the words that it may not begin
with. -/
lemma exists_parts {cs name value : List Char} {op : AssignOp}
    (h : Line.splitAssignment? cs = some (name, op, value)) :
    ∃ gap, Blank gap ∧ cs = name ++ (gap ++ (op.sign ++ value)) ∧ Line.isName name = true ∧
      (trimStart value).head? ≠ some '=' := by
  rw [Line.splitAssignment?] at h
  split at h
  · next isName =>
    split at h
    · next op' value' found =>
      split at h
      · cases h
      · next single =>
        cases h
        obtain ⟨gap, blank, split, -⟩ := trimStart_spec (cs.dropWhile Line.isNameChar)
        rw [eq_sign_of_assignOp? found] at split
        refine ⟨gap, blank, ?_, isName, single⟩
        rw [← split]
        exact List.takeWhile_append_dropWhile.symm
    · cases h
  · cases h

/-- What is read as an assignment begins with no keyword and can be split. -/
lemma splitAssignment?_of_readInstruction {cs : List Char} {name : String} {op : AssignOp}
    {v : Formula} (h : Line.readInstruction cs = .ok (.assign name op v)) :
    ¬ Opens "return" cs ∧ ¬ Opens "let" cs ∧
      ∃ letters value, Line.splitAssignment? cs = some (letters, op, value) ∧
        name = String.ofList letters ∧ v = Formula.compile value := by
  rw [Line.readInstruction] at h
  split at h
  · cases h
  split at h
  · cases h
  split at h
  · cases h
  · cases h
  next no_return =>
  split at h
  · split at h <;> cases h
  next no_let =>
  split at h
  · next letters op' value found =>
    cases h
    exact ⟨afterKeyword?_eq_none.mp no_return, afterKeyword?_eq_none.mp no_let, letters, value,
      found, rfl, rfl⟩
  · cases h

/-- What is read as an assignment has the shape of one. -/
lemma exists_assignment {cs : List Char} (bare : Bare cs) {name : String} {op : AssignOp}
    {v : Formula} (h : Line.read cs = .ok (.plain (.assign name op v))) :
    ∃ a : Assignment, a.chars = cs ∧ a.instruction = .assign name op v := by
  obtain ⟨s, rfl, meaning⟩ := exists_sentence_of_read bare h
  cases s with
  | finish | otherwise | function | branch | loop => cases meaning
  | plain p =>
    have reads := p.reads
    rw [Line.plain.inj meaning] at reads
    obtain ⟨no_return, no_let, letters, value, found, rfl, rfl⟩ :=
      splitAssignment?_of_readInstruction reads
    obtain ⟨gap, blank, split, isName, single⟩ := exists_parts found
    have no_opener : gap ≠ [] → String.ofList letters ∉ Line.openers := by
      intro some_gap mem
      -- the name would be the keyword of the line
      have opens : Opens (String.ofList letters) p.chars :=
        split ▸ opens_of_gap letters blank some_gap _
      simp only [Line.openers, List.mem_cons, List.not_mem_nil, or_false] at mem
      obtain word | word | word | word | word := mem <;> rw [word] at opens
      · exact p.no_function opens
      · exact p.no_branch opens
      · exact p.no_loop opens
      · exact no_return opens
      · exact no_let opens
    exact ⟨⟨letters, gap, op, value, isName, blank, single, no_opener⟩, split.symm, rfl⟩

namespace Layout

/-- A layout tells the statements apart that are added to it. -/
lemma push_injective {l : Layout} {s s' : Statement} (h : l.push s = l.push s') : s = s' := by
  obtain ⟨root, stack, functions⟩ := l
  cases stack <;> cases h <;> rfl

/-- Only a statement of one line is added as one: all other lines begin, turn or end a block. -/
lemma add_eq_push_iff {l : Layout} {k : Nat} {said : Line} {i : Instruction} :
    l.add k said = .ok (l.push (.plain k i)) ↔ said = .plain i := by
  constructor
  · intro h
    obtain ⟨root, stack, functions⟩ := l
    -- only a statement leaves the number of open blocks as it is
    have length : ∀ l', add ⟨root, stack, functions⟩ k said = .ok l' →
        l'.stack.length = stack.length := by
      intro l' added
      rw [h] at added
      cases added
      exact length_stack_push _ _
    cases said with
    | finish =>
      cases stack with
      | nil => cases h
      | cons top rest =>
        have shorter := length _ rfl
        rw [length_stack_close] at shorter
        simp at shorter
    | otherwise =>
      cases stack with
      | nil => cases h
      | cons top rest =>
        obtain ⟨line, head, body⟩ := top
        cases head <;> cases h
    | function | branch | loop =>
      have longer := length _ rfl
      simp [start] at longer
    | plain i' =>
      cases push_injective (Except.ok.inj h)
      rfl
  · rintro rfl
    rfl

/-- A line adds a statement if that is what it says. -/
lemma addText_eq_push_iff {l : Layout} {k : Nat} {cs : List Char} (bare : Bare cs)
    {i : Instruction} :
    l.addText k cs = .ok (l.push (.plain k i)) ↔ Line.read cs = .ok (.plain i) := by
  rw [addText, trim_bare bare]
  simp only [isSilent_of_bare bare, Bool.false_eq_true, if_false]
  cases Line.read cs with
  | error cause => simp
  | ok said =>
    rw [Except.ok.injEq, ← add_eq_push_iff (l := l) (k := k)]
    cases added : l.add k said <;> simp [added]

end Layout

/-- A line adds an assignment to its block exactly if it has the shape of that assignment, which is
the only shape that it has. -/
theorem assignment_iff_shape {cs : List Char} (bare : Bare cs) (l : Layout) (k : Nat) :
    (∀ name op v, l.addText k cs = .ok (l.push (.plain k (.assign name op v))) ↔
      ∃ a : Assignment, a.chars = cs ∧ String.ofList a.name = name ∧ a.op = op ∧
        Formula.compile a.value = v) ∧
    ∀ a a' : Assignment, a.chars = cs → a'.chars = cs → a = a' := by
  refine ⟨fun name op v => ?_,
    fun a a' same same' => Assignment.eq_of_chars (same.trans same'.symm)⟩
  rw [Layout.addText_eq_push_iff bare]
  constructor
  · intro read
    obtain ⟨a, same, instruction⟩ := exists_assignment bare read
    obtain ⟨name, op, value⟩ := Instruction.assign.inj instruction
    exact ⟨a, same, name, op, value⟩
  · rintro ⟨a, rfl, rfl, rfl, rfl⟩
    exact a.read_chars

/-- An assignment to a variable with the name of a keyword, of a comparison. -/
def cramped : Assignment where
  name := "return".toList
  gap := []
  op := .add
  value := "  a == b".toList
  isName := by decide +kernel
  blank := List.forall_mem_nil _
  single := by decide +kernel
  no_opener := fun some_gap => absurd rfl some_gap

/-- A keyword directly before a sign is the name of a variable. -/
theorem assignment_iff_shape_cramped :
    cramped.chars = "return+=  a == b".toList ∧ Bare cramped.chars ∧
    Layout.empty.addText 3 cramped.chars =
      .ok (Layout.empty.push (.plain 3 (.assign "return" .add
        (Formula.compile "  a == b".toList)))) ∧
    ∀ a : Assignment, a.chars = cramped.chars → a.gap = [] ∧ a.op = .add := by
  have bare : Bare cramped.chars :=
    bare_of_ends (c := 'r') (d := 'b') (by decide +kernel) (by decide +kernel) (by decide)
  obtain ⟨shape, unique⟩ := assignment_iff_shape bare .empty 3
  refine ⟨by decide +kernel, bare, (shape _ _ _).mpr ⟨cramped, rfl, ?_, rfl, rfl⟩, ?_⟩
  · exact String.ofList_toList
  · intro a same
    rw [unique a cramped same rfl]
    exact ⟨rfl, rfl⟩

end Linework
