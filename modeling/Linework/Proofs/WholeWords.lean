import Linework.Proofs.Faults
import Linework.Proofs.AssignmentLines
import Linework.Proofs.Columns

/-!
# Keywords as whole words

What may stand behind the keyword that begins a line. A keyword ends where no letter, number or
underscore follows, and a blank behind it should make no difference then. It makes none exactly
before a blank or a parenthesis: before any other sign the keyword is taken for a name.
-/

namespace Linework

open Text

/-- What a formula was read as, or why it was not, up to places. -/
def Formula.placeless (f : Formula) : Except SyntaxError.Cause Expr :=
  (f.compiled.map Expr.placeless).mapError (·.cause)

/-- Instructions of one kind with the same names and the same formulas up to places. -/
inductive Instruction.Alike : Instruction → Instruction → Prop where
  | compute {f f'} :
    f.placeless = f'.placeless →
    Alike (.compute f) (.compute f')
  | declare {name} {value value' : Option Formula} :
    value.map Formula.placeless = value'.map Formula.placeless →
    Alike (.declare name value) (.declare name value')
  | assign {name op f f'} :
    f.placeless = f'.placeless →
    Alike (.assign name op f) (.assign name op f')
  | yield {value value' : Option Formula} :
    value.map Formula.placeless = value'.map Formula.placeless →
    Alike (.yield value) (.yield value')
  | exit {word} :
    Alike (.exit word) (.exit word)

/-- Heads of blocks of one kind with the same names and the same condition up to places. -/
inductive OpenBlock.Head.Alike : OpenBlock.Head → OpenBlock.Head → Prop where
  | function {name params} :
    Alike (.function name params) (.function name params)
  | branch {f f'} :
    f.placeless = f'.placeless →
    Alike (.branch f) (.branch f')
  | loop {f f'} :
    f.placeless = f'.placeless →
    Alike (.loop f) (.loop f')

/-- Causes of one kind, whatever text they quote. -/
inductive LayoutError.Cause.Alike : LayoutError.Cause → LayoutError.Cause → Prop where
  | unmatchedBlock :
    Alike .unmatchedBlock .unmatchedBlock
  | danglingElse :
    Alike .danglingElse .danglingElse
  | malformedFunction {head head'} :
    Alike (.malformedFunction head) (.malformedFunction head')
  | malformedCondition {head head'} :
    Alike (.malformedCondition head) (.malformedCondition head')
  | malformedDeclaration {text text'} :
    Alike (.malformedDeclaration text) (.malformedDeclaration text')

/-- The same is done to a layout at a line: an instruction is added, a block is begun, or the line
is refused. -/
inductive Layout.Alike (l : Layout) (k : Nat) :
    Except LayoutError Layout → Except LayoutError Layout → Prop where
  | added {i i'} :
    i.Alike i' →
    Alike l k (.ok (l.push (.plain k i))) (.ok (l.push (.plain k i')))
  | begun {head head'} :
    head.Alike head' →
    Alike l k (.ok (l.start k head)) (.ok (l.start k head'))
  | refused {cause cause'} :
    cause.Alike cause' →
    Alike l k (.error ⟨k, cause⟩) (.error ⟨k, cause'⟩)

/-- Two lines are treated alike, wherever they stand. -/
def TreatedAlike (raw raw' : List Char) : Prop :=
  ∀ (l : Layout) (k : Nat), l.Alike k (l.addText k raw) (l.addText k raw')

/-! ### Blanks behind a word -/

section

variable {word x : List Char} {keyword : String}

/-- The blanks before a text may be dropped last. -/
lemma trimStart_trimEnd (x : List Char) : trimStart (trimEnd x) = trim x := by
  obtain ⟨left, right, blank, blank', split, trimmed⟩ := trim_spec x
  generalize trim x = cs at split trimmed
  subst split
  rw [trimEnd_append_blank blank']
  cases cs with
  | nil =>
    have nothing := trimEnd_append_blank blank []
    rw [List.nil_append] at nothing
    rw [List.append_nil, nothing]
    rfl
  | cons c cs =>
    have last : ∀ d ∈ (left ++ c :: cs).getLast?, isBlank d = false := by
      intro d last
      rw [List.getLast?_append_of_ne_nil _ (List.cons_ne_nil c cs)] at last
      exact trimmed.last d last
    rw [trimEnd_eq_self last, trimStart_blank_append blank, trimStart_eq_self trimmed.first]

/-- Dropping the blanks behind a text leaves its first character, if any. -/
lemma head?_trimEnd {c : Char} (first : c ∈ (trimEnd x).head?) : c ∈ x.head? := by
  obtain ⟨right, -, split, -⟩ := trimEnd_spec x
  rw [split]
  exact List.mem_head?_append_of_mem_head? first

/-- A text that does not begin with a blank keeps its first character. -/
lemma trimEnd_eq_cons {c : Char} (first : x.head? = some c) (solid : isBlank c = false) :
    ∃ y, trimEnd x = c :: y := by
  obtain ⟨right, blank, split, -⟩ := trimEnd_spec x
  cases rest : trimEnd x with
  | nil =>
    rw [rest, List.nil_append] at split
    rw [blank c (split ▸ List.mem_of_mem_head? first)] at solid
    cases solid
  | cons d y =>
    have same : d ∈ x.head? := head?_trimEnd (rest ▸ rfl)
    cases first.symm.trans same
    exact ⟨y, rfl⟩

/-- Only the blanks at the end of a line are trimmed if it begins with a word. -/
lemma trim_word_append (trimmed : Trimmed word) (nonempty : word ≠ []) (x : List Char) :
    trim (word ++ x) = word ++ trimEnd x := by
  have first : ∀ c ∈ (word ++ x).head?, isBlank c = false := by
    intro c first
    rw [List.head?_append_of_ne_nil _ nonempty] at first
    exact trimmed.first c first
  obtain ⟨right, blank, split, last⟩ := trimEnd_spec x
  have ends : ∀ c ∈ (word ++ trimEnd x).getLast?, isBlank c = false := by
    intro c ends
    cases rest : trimEnd x with
    | nil =>
      rw [rest, List.append_nil] at ends
      exact trimmed.last c ends
    | cons d ds =>
      rw [rest, List.getLast?_append_of_ne_nil _ (List.cons_ne_nil d ds), ← rest] at ends
      exact last c ends
  rw [trim, trimStart_eq_self first]
  conv_lhs => rw [split, ← List.append_assoc]
  rw [trimEnd_append_blank blank, trimEnd_eq_self ends]

/-- No keyword has blanks around it. -/
lemma trimmed_of_opener (mem : keyword ∈ Line.openers) : Trimmed keyword.toList := by
  have solid (c : Char) (letter : c ∈ keyword.toList) : isBlank c = false :=
    isBlank_of_isNameChar (isNameChar_of_opener mem c letter)
  exact ⟨fun c first => solid c (List.mem_of_mem_head? first),
    fun c last => solid c (List.mem_of_mem_getLast? last)⟩

/-- Every keyword has a first letter. -/
lemma opener_ne_nil (mem : keyword ∈ Line.openers) : keyword.toList ≠ [] := by
  have words : Line.openers.all (fun word => !word.toList.isEmpty) = true := by decide +kernel
  have some_letter := List.all_eq_true.mp words keyword mem
  simpa using some_letter

/-- What follows a keyword is what is left without blanks around it. -/
lemma afterKeyword?_trim (mem : keyword ∈ Line.openers)
    (ends : ∀ c ∈ x.head?, isBlank c = true ∨ c = '(') :
    Line.afterKeyword? keyword (trim (keyword.toList ++ x)) = some (trim x) := by
  rw [trim_word_append (trimmed_of_opener mem) (opener_ne_nil mem),
    afterKeyword?_append fun c first => ends c (head?_trimEnd first), trimStart_trimEnd]

/-- A keyword before a blank opens the line, and the rest is read without blanks around it. -/
lemma afterKeyword?_spaced (mem : keyword ∈ Line.openers) (x : List Char) :
    Line.afterKeyword? keyword (trim (keyword.toList ++ ' ' :: x)) = some (trim x) := by
  have blank : Blank [' '] := by decide
  have same := trim_between blank (List.forall_mem_nil _) x
  rw [List.append_nil] at same
  rw [← same]
  refine afterKeyword?_trim mem ?_
  rintro c ⟨⟩
  exact .inl rfl

end

/-! ### Lines with a keyword -/

/-- What becomes of a layout with a line that has been read. -/
def Layout.take (l : Layout) (k : Nat) : Except LayoutError.Cause Line → Except LayoutError Layout
  | .error cause => .error ⟨k, cause⟩
  | .ok said => (l.add k said).mapError (⟨k, ·⟩)

/-- A line that is not silent is taken in as what it says. -/
lemma Layout.addText_eq_take {raw : List Char} (loud : isSilent (trim raw) = false) (l : Layout)
    (k : Nat) : l.addText k raw = l.take k (Line.read (trim raw)) := by
  rw [addText]
  simp only [loud, Bool.false_eq_true, if_false]
  cases Line.read (trim raw) with
  | error cause => rfl
  | ok said =>
    simp only [take]
    cases l.add k said <;> rfl

section

variable {keyword : String} {cs cs' rest : List Char}

/-- A line that begins with a keyword is no comment. -/
lemma loud_of_opener (mem : keyword ∈ Line.openers) (x : List Char) :
    Layout.isSilent (trim (keyword.toList ++ x)) = false := by
  have nonempty := opener_ne_nil mem
  obtain ⟨c, cs, split⟩ := List.exists_cons_of_ne_nil nonempty
  have letter : Line.isNameChar c = true := isNameChar_of_opener mem c (split ▸ List.mem_cons_self)
  rw [trim_word_append (trimmed_of_opener mem) nonempty, ← Bool.not_eq_true, isSilent_iff, split]
  rintro (⟨⟨⟩⟩ | ⟨rest, same⟩)
  cases (List.cons.inj same).1
  exact absurd (by decide) (not_mem_signs letter)

/-- After `return` a line is read as a value to hand back. -/
lemma read_return (h : Line.afterKeyword? "return" cs = some rest) :
    Line.read cs =
      .ok (.plain (.yield (if rest = [] then none else some (Formula.compile rest)))) := by
  have head := (opens_of_afterKeyword? h).head? (c := 'r') (by simp)
  obtain ⟨no_end, no_else⟩ := other_block_word head (by decide)
  obtain ⟨no_function, -⟩ := other_word head "function" 'f' (by simp) (by decide)
  obtain ⟨no_branch, -⟩ := other_word head "if" 'i' (by simp) (by decide)
  obtain ⟨no_loop, -⟩ := other_word head "while" 'w' (by simp) (by decide)
  obtain ⟨-, no_break⟩ := other_word head "break" 'b' (by simp) (by decide)
  obtain ⟨-, no_continue⟩ := other_word head "continue" 'c' (by simp) (by decide)
  rw [Line.read, if_neg no_end, if_neg no_else, no_function, no_branch, no_loop,
    Line.readInstruction, if_neg no_break, if_neg no_continue, h]
  cases rest <;> rfl

/-- Only what follows the keyword matters. -/
lemma Layout.alike_of_rest (mem : keyword ∈ Line.openers)
    (h : Line.afterKeyword? keyword cs = some rest)
    (h' : Line.afterKeyword? keyword cs' = some rest) (l : Layout) (k : Nat) :
    l.Alike k (l.take k (Line.read cs)) (l.take k (Line.read cs')) := by
  simp only [Line.openers, List.mem_cons, List.not_mem_nil, or_false] at mem
  obtain rfl | rfl | rfl | rfl | rfl := mem
  · rw [read_function h, read_function h']
    cases Line.readHead? rest with
    | none => exact .refused .malformedFunction
    | some p => exact .begun .function
  · rw [read_branch h, read_branch h']
    cases Line.readCondition? rest with
    | none => exact .refused .malformedCondition
    | some condition => exact .begun (.branch rfl)
  · rw [read_loop h, read_loop h']
    cases Line.readCondition? rest with
    | none => exact .refused .malformedCondition
    | some condition => exact .begun (.loop rfl)
  · rw [read_return h, read_return h']
    exact .added (.yield rfl)
  · rw [read_declaration h, read_declaration h']
    cases Line.readDeclaration? rest with
    | none => exact .refused .malformedDeclaration
    | some p => exact .added (.declare rfl)

/-! ### Lines without a keyword -/

/-- Instructions that do not begin with a keyword. -/
def Instruction.isFree : Instruction → Bool
  | .compute _ | .assign _ _ _ => true
  | .declare _ _ | .yield _ | .exit _ => false

/-- Statements that are alike begin with a keyword both or not at all. -/
lemma Instruction.Alike.isFree {i i' : Instruction} (h : i.Alike i') : i.isFree = i'.isFree := by
  cases h <;> rfl

/-- The keyword of a line is never taken for a name. -/
lemma isFree_of_opens (mem : keyword ∈ Line.openers)
    (h : Line.afterKeyword? keyword cs = some rest) {i : Instruction}
    (read : Line.read cs = .ok (.plain i)) : i.isFree = false := by
  simp only [Line.openers, List.mem_cons, List.not_mem_nil, or_false] at mem
  obtain rfl | rfl | rfl | rfl | rfl := mem
  · rw [read_function h] at read
    cases found : Line.readHead? rest <;> rw [found] at read <;> cases read
  · rw [read_branch h] at read
    cases found : Line.readCondition? rest <;> rw [found] at read <;> cases read
  · rw [read_loop h] at read
    cases found : Line.readCondition? rest <;> rw [found] at read <;> cases read
  · rw [read_return h] at read
    cases read
    rfl
  · rw [read_declaration h] at read
    cases found : Line.readDeclaration? rest <;> rw [found] at read <;> cases read
    rfl

/-- A line that opens with no keyword and has a sign that is part of no word is an assignment or an
expression. -/
lemma read_free (none : ∀ keyword ∈ Line.openers, ¬ Opens keyword cs) {c : Char} (sign : c ∈ cs)
    (other : Line.isNameChar c = false) :
    ∃ i, Line.read cs = .ok (.plain i) ∧ i.isFree = true := by
  have words : ["end", "else", "break", "continue"].all
      (fun word => word.toList.all Line.isNameChar) = true := by decide +kernel
  have no_word (word : String) (mem : word ∈ ["end", "else", "break", "continue"]) :
      cs ≠ word.toList := by
    rintro rfl
    have chars := List.all_eq_true.mp words word mem
    rw [List.all_eq_true.mp chars c sign] at other
    cases other
  simp only [← afterKeyword?_eq_none] at none
  rw [Line.read, if_neg (no_word "end" (by decide)), if_neg (no_word "else" (by decide)),
    none "function" (by decide), none "if" (by decide), none "while" (by decide),
    Line.readInstruction, if_neg (no_word "break" (by decide)),
    if_neg (no_word "continue" (by decide)), none "return" (by decide), none "let" (by decide)]
  dsimp only
  cases Line.splitAssignment? cs with
  | none => exact ⟨_, rfl, rfl⟩
  | some parts => exact ⟨_, rfl, rfl⟩

/-- A word is no keyword of its line if it ends before a sign other than a parenthesis. -/
lemma not_opens_of_sign (chars : ∀ c ∈ cs, Line.isNameChar c = true) {c : Char}
    (other : Line.isNameChar c = false) (solid : isBlank c = false) (no_parenthesis : c ≠ '(')
    (mem : keyword ∈ Line.openers) (x : List Char) : ¬ Opens keyword (cs ++ c :: x) := by
  rintro ⟨rest, split, ends⟩
  have ends' : ∀ d ∈ rest.head?, Line.isNameChar d = false := by
    intro d first
    obtain blank | rfl := ends d first
    · exact isNameChar_of_isBlank blank
    · exact isNameChar_of_mem_signs (by decide)
  have here : ∀ d ∈ (c :: x).head?, Line.isNameChar d = false := by
    rintro d ⟨⟩
    exact other
  obtain ⟨-, rfl⟩ := word_append_inj chars (isNameChar_of_opener mem) here ends' split
  obtain blank | parenthesis := ends c rfl
  · rw [solid] at blank
    cases blank
  · exact no_parenthesis parenthesis

end

/-- Only an instruction is added as one. -/
lemma Layout.read_of_take {l : Layout} {k : Nat} {said : Except LayoutError.Cause Line}
    {i : Instruction} (h : l.take k said = .ok (l.push (.plain k i))) : said = .ok (.plain i) := by
  cases said with
  | error cause => cases h
  | ok said =>
    rw [take] at h
    cases step : l.add k said with
    | error cause =>
      rw [step] at h
      cases h
    | ok l' =>
      rw [step] at h
      rw [Except.ok.inj h] at step
      rw [add_eq_push_iff.mp step]

/-- What is like an instruction added is an instruction added. -/
lemma Layout.Alike.of_added {l : Layout} {k : Nat} {i : Instruction}
    {o : Except LayoutError Layout} (h : l.Alike k (.ok (l.push (.plain k i))) o) :
    ∃ i', o = .ok (l.push (.plain k i')) ∧ i.Alike i' := by
  generalize added : Except.ok (l.push (.plain k i)) = a at h
  cases h with
  | @added i₁ i' same =>
    cases push_injective (Except.ok.inj added)
    exact ⟨i', rfl, same⟩
  | @begun head head' =>
    have longer := congrArg (·.stack.length) (Except.ok.inj added)
    simp [length_stack_push, start] at longer
  | refused => cases added

section

variable {keyword : String} {r : List Char} {c : Char}

/-- Before a blank or a parenthesis, one more blank does not matter. -/
lemma treatedAlike_of_ends (mem : keyword ∈ Line.openers)
    (ends : ∀ c ∈ r.head?, isBlank c = true ∨ c = '(') :
    TreatedAlike (keyword.toList ++ r) (keyword.toList ++ ' ' :: r) := by
  have rest := afterKeyword?_trim mem ends
  have rest' := afterKeyword?_spaced mem r
  intro l k
  rw [Layout.addText_eq_take (loud_of_opener mem r), Layout.addText_eq_take (loud_of_opener mem _)]
  exact Layout.alike_of_rest mem rest rest' l k

/-- Before any other sign, the keyword is a name without the blank and a keyword with it. -/
lemma not_treatedAlike_of_sign (mem : keyword ∈ Line.openers) (first : r.head? = some c)
    (other : Line.isNameChar c = false) (solid : isBlank c = false) (no_parenthesis : c ≠ '(') :
    ¬ TreatedAlike (keyword.toList ++ r) (keyword.toList ++ ' ' :: r) := by
  intro alike
  obtain ⟨x, rest⟩ := trimEnd_eq_cons first solid
  have line : trim (keyword.toList ++ r) = keyword.toList ++ c :: x := by
    rw [trim_word_append (trimmed_of_opener mem) (opener_ne_nil mem), rest]
  have free_line (keyword' : String) (mem' : keyword' ∈ Line.openers) :
      ¬ Opens keyword' (keyword.toList ++ c :: x) :=
    not_opens_of_sign (isNameChar_of_opener mem) other solid no_parenthesis mem' x
  obtain ⟨i, read, free⟩ := read_free free_line (by simp) other
  have here := alike .empty 1
  rw [Layout.addText_eq_take (loud_of_opener mem r), line, read,
    Layout.addText_eq_take (loud_of_opener mem _)] at here
  obtain ⟨i', added, same⟩ := here.of_added
  have kept := isFree_of_opens mem (afterKeyword?_spaced mem r) (Layout.read_of_take added)
  rw [← same.isFree, free] at kept
  cases kept

end

/-- A keyword and a sign that is part of no word are treated like the two with a blank between them
exactly if the sign is a blank or a parenthesis. -/
theorem keyword_ends_iff {keyword : String} (mem : keyword ∈ Line.openers) {r : List Char}
    {c : Char} (first : r.head? = some c) (other : Line.isNameChar c = false) :
    TreatedAlike (keyword.toList ++ r) (keyword.toList ++ ' ' :: r) ↔
      isBlank c = true ∨ c = '(' := by
  constructor
  · intro alike
    by_contra sign
    rw [not_or, Bool.not_eq_true] at sign
    exact not_treatedAlike_of_sign mem first other sign.1 sign.2 alike
  · intro ends
    refine treatedAlike_of_ends mem fun d here => ?_
    cases first.symm.trans here
    exact ends

/-- A parenthesis ends the word, and an equals sign does not. -/
theorem keyword_ends_at_parenthesis :
    TreatedAlike ("while".toList ++ "(a)".toList) ("while".toList ++ ' ' :: "(a)".toList) ∧
    ¬ TreatedAlike ("let".toList ++ "=4".toList) ("let".toList ++ ' ' :: "=4".toList) := by
  have opener : "while" ∈ Line.openers ∧ "let" ∈ Line.openers := by decide
  have parenthesis := keyword_ends_iff opener.1 (r := "(a)".toList) (c := '(') (by decide +kernel)
    (by decide +kernel)
  have equals := keyword_ends_iff opener.2 (r := "=4".toList) (c := '=') (by decide +kernel)
    (by decide +kernel)
  exact ⟨parenthesis.mpr (.inr rfl), fun alike => absurd (equals.mp alike) (by decide)⟩

/-- `return` is a whole word before a minus sign, and yet no keyword there. -/
theorem return_before_sign_is_name :
    "return" ∈ Line.openers ∧ Line.isNameChar '-' = false ∧
    ¬ TreatedAlike "return-1".toList "return -1".toList := by
  have sign : Line.isNameChar '-' = false := isNameChar_of_mem_signs (by decide)
  have mem : "return" ∈ Line.openers := by decide
  have apart := not_treatedAlike_of_sign mem (r := "-1".toList) (c := '-') (by decide +kernel) sign
    (by decide) (by decide)
  have line : "return".toList ++ "-1".toList = "return-1".toList := by decide +kernel
  have line' : "return".toList ++ ' ' :: "-1".toList = "return -1".toList := by decide +kernel
  rw [line, line'] at apart
  exact ⟨mem, sign, apart⟩

end Linework
