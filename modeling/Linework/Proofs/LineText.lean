import Mathlib.Tactic.Lemma
import Mathlib.Data.List.DropRight
import Linework.Script.Layout

/-!
# The texts of lines

What stands on a line of a script, said without the functions that read it: blanks around a text,
lines that say nothing, keywords, and the heads of blocks. For each of them, what reading a line
makes of it.
-/

namespace Linework

open Text

section

variable {p : Char → Bool} {word word' rest rest' : List Char}

/-- A word is taken up to the first character that does not belong to it. -/
lemma takeWhile_word (chars : ∀ c ∈ word, p c = true) (ends : ∀ c ∈ rest.head?, p c = false) :
    (word ++ rest).takeWhile p = word ∧ (word ++ rest).dropWhile p = rest := by
  rw [List.takeWhile_append_of_pos chars, List.dropWhile_append_of_pos chars]
  cases rest with
  | nil => simp
  | cons c rest => simp [ends c rfl]

/-- A word ends where a text begins that does not begin with a character of words. -/
lemma word_append_inj (chars : ∀ c ∈ word, p c = true) (chars' : ∀ c ∈ word', p c = true)
    (ends : ∀ c ∈ rest.head?, p c = false) (ends' : ∀ c ∈ rest'.head?, p c = false)
    (h : word ++ rest = word' ++ rest') : word = word' ∧ rest = rest' := by
  obtain ⟨taken, dropped⟩ := takeWhile_word chars ends
  obtain ⟨taken', dropped'⟩ := takeWhile_word chars' ends'
  rw [h] at taken dropped
  exact ⟨taken.symm.trans taken', dropped.symm.trans dropped'⟩

end

/-- Nothing but blanks. -/
def Blank (cs : List Char) : Prop := ∀ c ∈ cs, isBlank c = true

instance (cs : List Char) : Decidable (Blank cs) := List.decidableBAll _ cs

/-- A text that neither begins nor ends with a blank. -/
structure Trimmed (cs : List Char) : Prop where
  first : ∀ c ∈ cs.head?, isBlank c = false
  last : ∀ c ∈ cs.getLast?, isBlank c = false

/-- Blanks before a text are dropped. -/
lemma trimStart_blank_append {left : List Char} (h : Blank left) (cs : List Char) :
    trimStart (left ++ cs) = trimStart cs :=
  List.dropWhile_append_of_pos h

/-- A text that does not begin with a blank stays as it is. -/
lemma trimStart_eq_self {cs : List Char} (first : ∀ c ∈ cs.head?, isBlank c = false) :
    trimStart cs = cs := by
  cases cs with
  | nil => rfl
  | cons c cs => exact List.dropWhile_cons_of_neg (by simp [first c rfl])

/-- Blanks after a text are dropped. -/
lemma trimEnd_append_blank {right : List Char} (h : Blank right) (cs : List Char) :
    trimEnd (cs ++ right) = trimEnd cs := by
  have backwards : ∀ c ∈ right.reverse, isBlank c = true := fun c hc => h c (List.mem_reverse.mp hc)
  rw [trimEnd, List.reverse_append, List.dropWhile_append_of_pos backwards, trimEnd]

/-- A text that does not end with a blank stays as it is. -/
lemma trimEnd_eq_self {cs : List Char} (last : ∀ c ∈ cs.getLast?, isBlank c = false) :
    trimEnd cs = cs := by
  have first : ∀ c ∈ cs.reverse.head?, isBlank c = false := by
    rwa [List.head?_reverse]
  have kept := trimStart_eq_self first
  rw [trimStart] at kept
  rw [trimEnd, kept, List.reverse_reverse]

/-- The blanks around a text are all that is trimmed. -/
lemma trim_padded {left right cs : List Char} (blank : Blank left) (blank' : Blank right)
    (trimmed : Trimmed cs) : trim (left ++ cs ++ right) = cs := by
  rw [trim, List.append_assoc, trimStart_blank_append blank]
  cases cs with
  | nil =>
    have nothing := trimStart_blank_append blank' []
    rw [List.append_nil] at nothing
    rw [List.nil_append, nothing]
    rfl
  | cons c cs =>
    have first : ∀ d ∈ (c :: cs ++ right).head?, isBlank d = false := trimmed.first
    rw [trimStart_eq_self first, trimEnd_append_blank blank', trimEnd_eq_self trimmed.last]

/-- What is dropped are the blanks before a text. -/
lemma trimStart_spec (cs : List Char) :
    ∃ left, Blank left ∧ cs = left ++ trimStart cs ∧
      ∀ c ∈ (trimStart cs).head?, isBlank c = false := by
  refine ⟨cs.takeWhile isBlank, ?_, (List.takeWhile_append_dropWhile).symm, ?_⟩
  · intro c hc
    exact List.mem_takeWhile_imp hc
  · intro c hc
    have found := List.head?_dropWhile_not isBlank cs
    rw [trimStart] at hc
    rw [hc] at found
    simpa using found

/-- What is dropped are the blanks after a text. -/
lemma trimEnd_spec (cs : List Char) :
    ∃ right, Blank right ∧ cs = trimEnd cs ++ right ∧
      ∀ c ∈ (trimEnd cs).getLast?, isBlank c = false := by
  obtain ⟨left, blank, split, first⟩ := trimStart_spec cs.reverse
  refine ⟨left.reverse, fun c hc => blank c (List.mem_reverse.mp hc), ?_, ?_⟩
  · rw [trimEnd, ← List.reverse_append, ← trimStart, ← split, List.reverse_reverse]
  · rwa [trimEnd, List.getLast?_reverse]

/-- Every text is a trimmed one with blanks around it. -/
lemma trim_spec (cs : List Char) :
    ∃ left right, Blank left ∧ Blank right ∧ cs = left ++ trim cs ++ right ∧ Trimmed (trim cs) := by
  obtain ⟨left, blank, split, first⟩ := trimStart_spec cs
  obtain ⟨right, blank', split', last⟩ := trimEnd_spec (trimStart cs)
  refine ⟨left, right, blank, blank', ?_, ?_, last⟩
  · rw [trim, List.append_assoc, ← split', ← split]
  · intro c hc
    apply first c
    rw [split']
    exact List.mem_head?_append_of_mem_head? hc

/-- Blanks around a text do not matter, also if the text has some of its own. -/
lemma trim_between {left right : List Char} (blank : Blank left) (blank' : Blank right)
    (cs : List Char) : trim (left ++ cs ++ right) = trim cs := by
  obtain ⟨before, after, own, own', split, trimmed⟩ := trim_spec cs
  have around : left ++ cs ++ right = (left ++ before) ++ trim cs ++ (after ++ right) := by
    conv_lhs => rw [split]
    simp only [List.append_assoc]
  rw [around]
  exact trim_padded (List.forall_mem_append.mpr ⟨blank, own⟩)
    (List.forall_mem_append.mpr ⟨own', blank'⟩) trimmed

/-- Blanks end where a text begins that does not begin with a blank. -/
lemma blank_append_inj {left left' cs cs' : List Char} (blank : Blank left) (blank' : Blank left')
    (first : ∀ c ∈ cs.head?, isBlank c = false) (first' : ∀ c ∈ cs'.head?, isBlank c = false)
    (h : left ++ cs = left' ++ cs') : left = left' ∧ cs = cs' := by
  have same : cs = cs' := by
    rw [← trimStart_eq_self first, ← trimStart_blank_append blank, h,
      trimStart_blank_append blank', trimStart_eq_self first']
  subst same
  exact ⟨List.append_cancel_right h, rfl⟩

/-- A text that says something and has no blanks around it. -/
structure Bare (cs : List Char) : Prop extends Trimmed cs where
  ne_nil : cs ≠ []
  loud : ¬ ['/', '/'] <+: cs

/-- A bare line has no blanks around it. -/
lemma trim_bare {cs : List Char} (bare : Bare cs) : trim cs = cs := by
  rw [trim, trimStart_eq_self bare.first, trimEnd_eq_self bare.last]

/-- A line that says nothing: it has only blanks, or two slashes after its blanks. -/
def Silent (raw : List Char) : Prop :=
  Blank raw ∨ ∃ left rest, Blank left ∧ raw = left ++ '/' :: '/' :: rest

/-- A silent line is empty or a comment. -/
lemma isSilent_iff {cs : List Char} :
    Layout.isSilent cs = true ↔ cs = [] ∨ ['/', '/'] <+: cs := by
  rw [Layout.isSilent, Bool.or_eq_true, List.isEmpty_iff, List.isPrefixOf_iff_prefix]
  rfl

/-- A bare line says something. -/
lemma isSilent_of_bare {cs : List Char} (bare : Bare cs) : Layout.isSilent cs = false := by
  rw [← Bool.not_eq_true, isSilent_iff]
  rintro (empty | comment)
  · exact bare.ne_nil empty
  · exact bare.loud comment

/-- Trimming does not reach the slashes of a comment. -/
lemma comment_trim {left : List Char} (blank : Blank left) (rest : List Char) :
    ['/', '/'] <+: trim (left ++ '/' :: '/' :: rest) := by
  have slash : isBlank '/' = false := by decide
  have first : ∀ c ∈ ('/' :: '/' :: rest).head?, isBlank c = false := by
    rintro c ⟨⟩
    exact slash
  rw [trim, trimStart_blank_append blank, trimStart_eq_self first]
  obtain ⟨right, blank', split, -⟩ := trimEnd_spec ('/' :: '/' :: rest)
  have no_slash : '/' ∉ right := by
    intro mem
    have := blank' _ mem
    rw [slash] at this
    cases this
  generalize trimEnd ('/' :: '/' :: rest) = cs at split ⊢
  match cs with
  | [] =>
    rw [List.nil_append] at split
    exact absurd (split ▸ List.mem_cons_self) no_slash
  | [c] =>
    rw [List.singleton_append, List.cons.injEq] at split
    exact absurd (split.2 ▸ List.mem_cons_self) no_slash
  | c :: d :: cs =>
    simp only [List.cons_append, List.cons.injEq] at split
    obtain ⟨rfl, rfl, -⟩ := split
    exact ⟨cs, rfl⟩

/-- A silent line is silent without the blanks around it. -/
lemma isSilent_trim {raw : List Char} (silent : Silent raw) :
    Layout.isSilent (trim raw) = true := by
  rw [isSilent_iff]
  obtain blank | ⟨left, rest, blank, rfl⟩ := silent
  · have nothing : trim (raw ++ [] ++ []) = [] :=
      trim_padded blank (List.forall_mem_nil _) ⟨nofun, nofun⟩
    rw [List.append_nil, List.append_nil] at nothing
    exact .inl nothing
  · exact .inr (comment_trim blank rest)

/-- Every line says nothing, or is a text with blanks around it. -/
lemma silent_or_padded (raw : List Char) :
    Silent raw ∨
      ∃ left cs right, Blank left ∧ Blank right ∧ Bare cs ∧ raw = left ++ cs ++ right := by
  obtain ⟨left, right, blank, blank', split, trimmed⟩ := trim_spec raw
  generalize trim raw = cs at split trimmed
  subst split
  by_cases empty : cs = []
  · subst empty
    refine .inl (.inl ?_)
    intro c hc
    rw [List.append_nil, List.mem_append] at hc
    exact hc.elim (blank c) (blank' c)
  · by_cases comment : ['/', '/'] <+: cs
    · obtain ⟨rest, rfl⟩ := comment
      refine .inl (.inr ⟨left, rest ++ right, blank, ?_⟩)
      simp
    · exact .inr ⟨left, cs, right, blank, blank', ⟨trimmed, empty, comment⟩, rfl⟩

/-- Cutting into pieces is splitting. -/
lemma pieces_eq_splitOn (separator : Char) (cs : List Char) :
    Line.pieces separator cs = cs.splitOn separator := by
  induction cs with
  | nil => rfl
  | cons c cs ih =>
    rw [Line.pieces, ih, List.splitOn_cons_eq_if_modifyHead]
    have some_piece := List.splitOn_ne_nil separator cs
    cases pieces : cs.splitOn separator with
    | nil => exact absurd pieces some_piece
    | cons piece rest => simp [beq_iff_eq]

/-- No piece has a separator. -/
lemma not_mem_of_mem_splitOn {separator : Char} {cs piece : List Char}
    (mem : piece ∈ cs.splitOn separator) : separator ∉ piece := by
  induction cs generalizing piece with
  | nil =>
    rw [List.splitOn_nil, List.mem_singleton] at mem
    subst mem
    exact List.not_mem_nil
  | cons c cs ih =>
    rw [List.splitOn_cons_eq_if_modifyHead] at mem
    split at mem
    · rcases List.mem_cons.mp mem with rfl | mem
      · exact List.not_mem_nil
      · exact ih mem
    · next other =>
      cases pieces : cs.splitOn separator with
      | nil => exact absurd pieces (List.splitOn_ne_nil separator cs)
      | cons first rest =>
        rw [pieces, List.modifyHead_cons] at mem
        rcases List.mem_cons.mp mem with rfl | mem
        · rw [List.mem_cons, not_or]
          refine ⟨fun same => other (by rw [same, beq_self_eq_true]), ?_⟩
          exact ih (pieces ▸ List.mem_cons_self)
        · exact ih (pieces ▸ List.mem_cons_of_mem _ mem)

end Linework
