import Linework.Proofs.Rendering

/-!
# Blocks that are open after some lines

Which blocks are open after some lines of a script, said by the lines alone. Lines are `Enclosed` if
every block that begins among them ends among them, and no other one does. A block is open if it
begins on a line and only enclosed lines stand between it and the next block that is open, or the
end. `OpenAfter` says this of a whole stack of open blocks; reading keeps it.
-/

namespace Linework

open Text

instance (keyword : String) (cs : List Char) : Decidable (Opens keyword cs) :=
  decidable_of_iff (Line.afterKeyword? keyword cs ≠ none) (by
    rw [Ne, afterKeyword?_eq_none, not_not])

/-- What is read after a keyword follows it. -/
lemma opens_of_afterKeyword? {keyword : String} {cs r : List Char}
    (h : Line.afterKeyword? keyword cs = some r) : Opens keyword cs := by
  by_contra none
  rw [afterKeyword?_eq_none.mpr none] at h
  cases h

/-- The head of a function begins with its keyword. -/
lemma Header.opens (h : Header) : Opens "function" ("function".toList ++ (h.gap ++ h.chars)) :=
  opens_of_afterKeyword? (afterKeyword?_gap h.blank_gap h.first (.inl h.gap_ne_nil))

/-- A condition stands after its keyword. -/
lemma Condition.opens (keyword : String) (c : Condition) :
    Opens keyword (keyword.toList ++ (c.gap ++ c.chars)) :=
  opens_of_afterKeyword? (afterKeyword?_gap c.blank c.first (.inr rfl))

/-- A line that begins a block. -/
def isHead (raw : List Char) : Bool :=
  Opens "function" (trim raw) ∨ Opens "if" (trim raw) ∨ Opens "while" (trim raw)

/-- A line that ends a block. -/
def isEnd (raw : List Char) : Bool := trim raw = "end".toList

/-- A line that turns to the other block of a branch. -/
def isElse (raw : List Char) : Bool := trim raw = "else".toList

/-- How many blocks begin. -/
def heads (rows : List (List Char)) : Nat := rows.countP isHead

/-- How many blocks end. -/
def ends (rows : List (List Char)) : Nat := rows.countP isEnd

/-- Lines among which exactly those blocks end that begin there. -/
inductive Enclosed : List (List Char) → Prop where
  | nil : Enclosed []
  | inner {raw rows} :
    isHead raw = false →
    isEnd raw = false →
    Enclosed rows →
    Enclosed (raw :: rows)
  | block {raw inside last rows} :
    isHead raw = true →
    Enclosed inside →
    isEnd last = true →
    Enclosed rows →
    Enclosed (raw :: (inside ++ last :: rows))

/-- The lines after the head of a block have its end. -/
def HasEnd (rows : List (List Char)) : Prop :=
  ∃ inside last rest, rows = inside ++ last :: rest ∧ Enclosed inside ∧ isEnd last = true

/-- The lines after the head of a branch have its turn to the other block. -/
def HasElse (rows : List (List Char)) : Prop :=
  ∃ inside turn rest, rows = inside ++ turn :: rest ∧ Enclosed inside ∧ isElse turn = true

/-- None of the words that begin a block has this letter. -/
lemma isHead_of_letter {raw : List Char} (letter : (trim raw).head? = some 'e') :
    isHead raw = false := by
  rw [← Bool.not_eq_true, isHead, decide_eq_true_iff]
  rintro (opens | opens | opens)
  · exact not_opens (d := 'f') (by simp) letter (by decide) opens
  · exact not_opens (d := 'i') (by simp) letter (by decide) opens
  · exact not_opens (d := 'w') (by simp) letter (by decide) opens

/-- An end begins nothing. -/
lemma isHead_of_isEnd {raw : List Char} (finish : isEnd raw = true) : isHead raw = false := by
  rw [isEnd, decide_eq_true_iff] at finish
  exact isHead_of_letter (by simp [finish])

/-- An `else` begins nothing. -/
lemma isHead_of_isElse {raw : List Char} (turn : isElse raw = true) : isHead raw = false := by
  rw [isElse, decide_eq_true_iff] at turn
  exact isHead_of_letter (by simp [turn])

/-- A beginning ends nothing. -/
lemma isEnd_of_isHead {raw : List Char} (head : isHead raw = true) : isEnd raw = false := by
  rw [← Bool.not_eq_true]
  intro finish
  rw [isHead_of_isEnd finish] at head
  cases head

/-- An `else` ends nothing. -/
lemma isEnd_of_isElse {raw : List Char} (turn : isElse raw = true) : isEnd raw = false := by
  rw [isElse, decide_eq_true_iff] at turn
  rw [isEnd, turn]
  simp

section Lists

variable {α : Type} {xs ys as bs : List α} {x a : α}

/-- An entry of two lists together is one of the first or one of the second. -/
lemma append_cons_eq_append (h : xs ++ x :: ys = as ++ bs) :
    (∃ cs, as = xs ++ x :: cs ∧ ys = cs ++ bs) ∨ ∃ cs, xs = as ++ cs ∧ bs = cs ++ x :: ys := by
  obtain ⟨cs, rfl, split⟩ | ⟨cs, rfl, rfl⟩ := List.append_eq_append_iff.mp h
  · cases cs with
    | nil => exact .inr ⟨[], by simp, split.symm⟩
    | cons c cs =>
      obtain ⟨rfl, rfl⟩ := List.cons.inj split
      exact .inl ⟨cs, rfl, rfl⟩
  · exact .inr ⟨cs, rfl, rfl⟩

/-- Of two entries of one list, one comes first unless they are the same. -/
lemma append_cons_eq_append_cons (h : xs ++ x :: ys = as ++ a :: bs) :
    (∃ cs, as = xs ++ x :: cs ∧ ys = cs ++ a :: bs) ∨ (xs = as ∧ x = a ∧ ys = bs) ∨
      ∃ cs, xs = as ++ a :: cs ∧ bs = cs ++ x :: ys := by
  obtain before | ⟨cs, rfl, split⟩ := append_cons_eq_append h
  · exact .inl before
  · cases cs with
    | nil =>
      obtain ⟨rfl, rfl⟩ := List.cons.inj split
      exact .inr (.inl ⟨List.append_nil _, rfl, rfl⟩)
    | cons c cs =>
      obtain ⟨rfl, rfl⟩ := List.cons.inj split
      exact .inr (.inr ⟨cs, rfl, rfl⟩)

end Lists

/-- Without lines nothing begins. -/
@[simp] lemma heads_nil : heads [] = 0 := rfl

/-- Without lines nothing ends. -/
@[simp] lemma ends_nil : ends [] = 0 := rfl

/-- The beginnings of the first line and of the others. -/
@[simp] lemma heads_cons (raw : List Char) (rows : List (List Char)) :
    heads (raw :: rows) = heads rows + if isHead raw = true then 1 else 0 :=
  List.countP_cons

/-- The ends of the first line and of the others. -/
@[simp] lemma ends_cons (raw : List Char) (rows : List (List Char)) :
    ends (raw :: rows) = ends rows + if isEnd raw = true then 1 else 0 :=
  List.countP_cons

/-- The beginnings of lines and of those that follow. -/
@[simp] lemma heads_append (rows rows' : List (List Char)) :
    heads (rows ++ rows') = heads rows + heads rows' :=
  List.countP_append

/-- The ends of lines and of those that follow. -/
@[simp] lemma ends_append (rows rows' : List (List Char)) :
    ends (rows ++ rows') = ends rows + ends rows' :=
  List.countP_append

namespace Enclosed

variable {rows rows' : List (List Char)} {raw last : List Char}

/-- Enclosed lines one after the other. -/
lemma append (h : Enclosed rows) (h' : Enclosed rows') : Enclosed (rows ++ rows') := by
  induction h with
  | nil => exact h'
  | inner head finish _ ih => exact .inner head finish ih
  | block head inside finish _ _ ih =>
    rw [List.cons_append, List.append_assoc, List.cons_append]
    exact .block head inside finish ih

/-- One more line that neither begins nor ends anything. -/
lemma concat (h : Enclosed rows) (head : isHead raw = false) (finish : isEnd raw = false) :
    Enclosed (rows ++ [raw]) :=
  h.append (.inner head finish .nil)

/-- Enclosed lines between a beginning and its end. -/
lemma wrap (h : Enclosed rows) (head : isHead raw = true) (finish : isEnd last = true) :
    Enclosed (raw :: (rows ++ [last])) :=
  .block head h finish .nil

/-- Enclosed lines have as many beginnings as ends. -/
lemma heads_eq_ends (h : Enclosed rows) : heads rows = ends rows := by
  induction h with
  | nil => rfl
  | inner head finish _ ih => simpa [head, finish] using ih
  | block head _ finish _ ihInside ih =>
    simp [head, finish, isHead_of_isEnd finish, isEnd_of_isHead head, ihInside, ih]
    omega

/-- Up to no line have more blocks ended than begun. -/
lemma ends_le_heads (h : Enclosed (rows ++ rows')) : ends rows ≤ heads rows := by
  generalize whole : rows ++ rows' = all at h
  induction h generalizing rows rows' with
  | nil =>
    rw [(List.append_eq_nil_iff.mp whole).1]
    exact Nat.le_refl _
  | inner head finish _ ih =>
    obtain ⟨rfl, -⟩ | ⟨tail, rfl, rfl⟩ := List.append_eq_cons_iff.mp whole
    · exact Nat.le_refl _
    · simpa [head, finish] using ih rfl
  | @block raw inside last rest head enclosed finish _ ihInside ih =>
    obtain ⟨rfl, -⟩ | ⟨tail, rfl, split⟩ := List.append_eq_cons_iff.mp whole
    · exact Nat.le_refl _
    have no_end := isEnd_of_isHead head
    obtain ⟨cs, rfl, rfl⟩ | ⟨cs, rfl, -⟩ := append_cons_eq_append split
    · have balanced := enclosed.heads_eq_ends
      have later := ih rfl
      simp only [heads_cons, ends_cons, heads_append, ends_append, head, finish, no_end,
        isHead_of_isEnd finish, if_true, Bool.false_eq_true, if_false]
      omega
    · have within : ends tail ≤ heads tail := ihInside rfl
      simp only [heads_cons, ends_cons, head, no_end, if_true, Bool.false_eq_true, if_false]
      omega

/-- Enclosed lines do not end the block that they stand in. -/
lemma not_hasEnd (h : Enclosed rows) : ¬ HasEnd rows := by
  rintro ⟨inside, last, rest, rfl, enclosed, finish⟩
  rw [List.append_cons] at h
  have within := h.ends_le_heads
  have balanced := enclosed.heads_eq_ends
  simp only [heads_append, ends_append, heads_cons, ends_cons, heads_nil, ends_nil, finish,
    isHead_of_isEnd finish, if_true, Bool.false_eq_true, if_false] at within
  omega

/-- A block that begins among enclosed lines ends there. -/
lemma hasEnd_of_isHead (h : Enclosed (rows ++ raw :: rows')) (head : isHead raw = true) :
    HasEnd rows' := by
  generalize whole : rows ++ raw :: rows' = all at h
  induction h generalizing rows rows' with
  | nil => exact absurd whole (List.append_ne_nil_of_right_ne_nil _ (List.cons_ne_nil _ _))
  | inner no_head _ _ ih =>
    obtain ⟨-, split⟩ | ⟨tail, -, rfl⟩ := List.append_eq_cons_iff.mp whole
    · obtain ⟨rfl, -⟩ := List.cons.inj split
      rw [no_head] at head
      cases head
    · exact ih rfl
  | @block _ inside last rest _ enclosed finish _ ihInside ih =>
    obtain ⟨-, split⟩ | ⟨tail, -, split⟩ := List.append_eq_cons_iff.mp whole
    · obtain ⟨-, rfl⟩ := List.cons.inj split
      exact ⟨inside, last, rest, rfl, enclosed, finish⟩
    · obtain ⟨cs, rfl, rfl⟩ | ⟨-, rfl, -⟩ | ⟨cs, rfl, rfl⟩ := append_cons_eq_append_cons split
      · exact ih rfl
      · rw [isHead_of_isEnd finish] at head
        cases head
      · obtain ⟨inside', last', rest', rfl, enclosed', finish'⟩ := ihInside rfl
        exact ⟨inside', last', rest' ++ last :: rest, by simp, enclosed', finish'⟩

/-- The turn of a branch within enclosed lines is not the turn of the branch around them. -/
lemma hasElse_append_block {inside : List (List Char)} (head : isHead raw = true)
    (enclosed : Enclosed inside) :
    HasElse (rows ++ raw :: (inside ++ [last])) ↔ HasElse rows := by
  constructor
  · rintro ⟨before, turn, rest, split, enclosed', turns⟩
    obtain ⟨cs, rfl, -⟩ | ⟨cs, rfl, behind⟩ := append_cons_eq_append split.symm
    · exact ⟨before, turn, cs, rfl, enclosed', turns⟩
    obtain ⟨rfl, same⟩ | ⟨cs, rfl, within⟩ := List.cons_eq_append_iff.mp behind
    · obtain ⟨rfl, -⟩ := List.cons.inj same
      rw [isHead_of_isElse turns] at head
      cases head
    -- the lines before the turn are enclosed, so the block has ended among them
    · obtain ⟨inside', last', rest', rfl, inner, finish'⟩ := enclosed'.hasEnd_of_isHead head
      rw [List.append_assoc, List.cons_append] at within
      obtain ⟨ds, rfl, -⟩ | ⟨ds, -, tail⟩ := append_cons_eq_append within.symm
      · exact absurd ⟨inside', last', ds, rfl, inner, finish'⟩ enclosed.not_hasEnd
      · have lengths := congrArg List.length tail
        simp only [List.length_append, List.length_cons, List.length_nil] at lengths
        omega
  · rintro ⟨before, turn, rest, rfl, enclosed', turns⟩
    exact ⟨before, turn, rest ++ raw :: (inside ++ [last]), by simp, enclosed', turns⟩

end Enclosed

/-- A line that is no `else` adds none. -/
lemma hasElse_concat {rows : List (List Char)} {raw : List Char} (other : isElse raw = false) :
    HasElse (rows ++ [raw]) ↔ HasElse rows := by
  constructor
  · rintro ⟨before, turn, rest, split, enclosed, turns⟩
    obtain ⟨cs, rfl, -⟩ | ⟨cs, rfl, single⟩ := append_cons_eq_append split.symm
    · exact ⟨before, turn, cs, rfl, enclosed, turns⟩
    · obtain ⟨-, same⟩ | ⟨ds, -, none⟩ := List.cons_eq_append_iff.mp single
      · obtain ⟨rfl, -⟩ := List.cons.inj same
        rw [other] at turns
        cases turns
      · exact absurd none.symm (List.append_ne_nil_of_right_ne_nil _ (List.cons_ne_nil _ _))
  · rintro ⟨before, turn, rest, rfl, enclosed, turns⟩
    exact ⟨before, turn, rest ++ [raw], by simp, enclosed, turns⟩

/-- The head of an open block as it stands on its line, and as the lines after it have left it. -/
def OpenBlock.Head.Suits (cs : List Char) (inside : List (List Char)) : OpenBlock.Head → Prop
  | .function _ _ => Opens "function" cs
  | .branch _ => Opens "if" cs ∧ ¬ HasElse inside
  | .otherwise _ _ => Opens "if" cs ∧ HasElse inside
  | .loop _ => Opens "while" cs

/-- The open blocks after some lines, innermost first. -/
inductive OpenAfter : List (List Char) → List OpenBlock → Prop where
  | closed {rows} :
    Enclosed rows →
    OpenAfter rows []
  | opened {before raw inside block stack} :
    OpenAfter before stack →
    block.line = before.length + 1 →
    block.head.Suits (trim raw) inside →
    Enclosed inside →
    OpenAfter (before ++ raw :: inside) (block :: stack)

/-- The head of an open block stands on a line that begins one. -/
lemma OpenBlock.Head.Suits.isHead {head : OpenBlock.Head} {raw : List Char}
    {inside : List (List Char)} (h : head.Suits (trim raw) inside) : isHead raw = true := by
  rw [Linework.isHead, decide_eq_true_iff]
  cases head with
  | function => exact .inl h
  | branch => exact .inr (.inl h.1)
  | otherwise => exact .inr (.inl h.1)
  | loop => exact .inr (.inr h)

/-- Only whether there is an `else` matters of what is inside. -/
lemma OpenBlock.Head.Suits.congr {head : OpenBlock.Head} {cs : List Char}
    {inside inside' : List (List Char)} (h : head.Suits cs inside)
    (same : HasElse inside' ↔ HasElse inside) : head.Suits cs inside' := by
  cases head with
  | function => exact h
  | branch => exact ⟨h.1, fun turned => h.2 (same.mp turned)⟩
  | otherwise => exact ⟨h.1, same.mpr h.2⟩
  | loop => exact h

namespace OpenAfter

variable {rows : List (List Char)} {raw : List Char} {stack : List OpenBlock}

/-- The innermost block that is open, and what stands in it. -/
lemma inv {block : OpenBlock} (h : OpenAfter rows (block :: stack)) :
    ∃ before head inside, rows = before ++ head :: inside ∧ OpenAfter before stack ∧
      block.line = before.length + 1 ∧ block.head.Suits (trim head) inside ∧ Enclosed inside := by
  cases h with
  | opened outer line suits enclosed => exact ⟨_, _, _, rfl, outer, line, suits, enclosed⟩

/-- One more line that leaves the open blocks alone. -/
lemma concat (h : OpenAfter rows stack) (no_head : isHead raw = false) (no_end : isEnd raw = false)
    (no_else : isElse raw = false) : OpenAfter (rows ++ [raw]) stack := by
  cases h with
  | closed enclosed => exact .closed (enclosed.concat no_head no_end)
  | opened outer line suits enclosed =>
    rw [List.append_assoc, List.cons_append]
    exact .opened outer line (suits.congr (hasElse_concat no_else))
      (enclosed.concat no_head no_end)

/-- A whole block changes nothing about the blocks around it. -/
lemma append_block {inside : List (List Char)} {last : List Char} (h : OpenAfter rows stack)
    (head : isHead raw = true) (enclosed : Enclosed inside) (finish : isEnd last = true) :
    OpenAfter (rows ++ raw :: (inside ++ [last])) stack := by
  have block := enclosed.wrap head finish
  cases h with
  | closed before => exact .closed (before.append block)
  | opened outer line suits before =>
    rw [List.append_assoc, List.cons_append]
    exact .opened outer line (suits.congr (Enclosed.hasElse_append_block head enclosed))
      (before.append block)

/-- A statement leaves the open blocks open. -/
lemma push {l : Layout} (h : OpenAfter rows l.stack) (s : Statement) :
    OpenAfter rows (l.push s).stack := by
  obtain ⟨root, stack, functions⟩ := l
  cases h with
  | closed enclosed => exact .closed enclosed
  | opened outer line suits enclosed => exact .opened outer line suits enclosed

/-- A block that has been closed is among the others. -/
lemma close {l : Layout} (h : OpenAfter rows l.stack) (b : OpenBlock) :
    OpenAfter rows (l.close b).stack := by
  obtain ⟨line, head, body⟩ := b
  cases head with
  | function => exact h
  | branch | otherwise | loop => exact h.push _

/-- As many blocks are open as have begun and not ended. -/
lemma heads_eq (h : OpenAfter rows stack) : heads rows = ends rows + stack.length := by
  induction h with
  | closed enclosed => exact enclosed.heads_eq_ends
  | opened _ _ suits enclosed ih =>
    have balanced := enclosed.heads_eq_ends
    have head := suits.isHead
    simp only [heads_append, ends_append, heads_cons, ends_cons, head, isEnd_of_isHead head,
      if_true, Bool.false_eq_true, if_false, List.length_cons]
    omega

end OpenAfter

namespace Layout

/-- What a line that is taken in does to the blocks read so far. -/
inductive Takes (l : Layout) (k : Nat) (raw : List Char) : Layout → Prop where
  | silent :
    isHead raw = false →
    isEnd raw = false →
    isElse raw = false →
    Takes l k raw l
  | plain (s : Statement) :
    isHead raw = false →
    isEnd raw = false →
    isElse raw = false →
    Takes l k raw (l.push s)
  | start (head : OpenBlock.Head) :
    head.Suits (trim raw) [] →
    Takes l k raw (l.start k head)
  | finish {top rest} :
    isEnd raw = true →
    l.stack = top :: rest →
    Takes l k raw ({ l with stack := rest }.close top)
  | turn {line condition body rest} :
    isElse raw = true →
    l.stack = ⟨line, .branch condition, body⟩ :: rest →
    Takes l k raw { l with stack := ⟨line, .otherwise condition body.reverse, []⟩ :: rest }

/-- Without lines there is no `else`. -/
lemma not_hasElse_nil : ¬ HasElse [] := by
  rintro ⟨inside, turn, rest, none, -⟩
  exact absurd none.symm (List.append_ne_nil_of_right_ne_nil _ (List.cons_ne_nil _ _))

/-- A silent line begins with a slash, if at all. -/
lemma letter_of_silent {raw : List Char} (silent : Silent raw) :
    ∀ c ∈ (trim raw).head?, c = '/' := by
  obtain nothing | ⟨rest, comment⟩ := isSilent_iff.mp (isSilent_trim silent)
  · rw [nothing]
    rintro c ⟨⟩
  · rw [← comment]
    rintro c ⟨⟩
    rfl

/-- A silent line says none of the words. -/
lemma takes_silent {raw : List Char} (silent : Silent raw) (l : Layout) (k : Nat) :
    l.Takes k raw l := by
  have word {cs : List Char} {c : Char} (head : cs.head? = some c) (other : c ≠ '/') :
      trim raw ≠ cs :=
    fun same => other (letter_of_silent silent c (by rw [same, head]; rfl))
  refine .silent ?_ ?_ ?_
  · rw [← Bool.not_eq_true, isHead, decide_eq_true_iff]
    rintro (⟨rest, same, -⟩ | ⟨rest, same, -⟩ | ⟨rest, same, -⟩)
    · exact word (c := 'f') (by simp) (by decide) same
    · exact word (c := 'i') (by simp) (by decide) same
    · exact word (c := 'w') (by simp) (by decide) same
  · exact decide_eq_false (word (c := 'e') (by simp) (by decide))
  · exact decide_eq_false (word (c := 'e') (by simp) (by decide))

/-- What a sentence does depends on its words alone. -/
lemma takes_sentence {l l' : Layout} {k : Nat} {raw : List Char} {s : Sentence}
    (text : trim raw = s.text) (h : l.add k s.meaning = .ok l') : l.Takes k raw l' := by
  -- without an open block, or without a branch for `else`, the sentence is not taken in
  cases s with
  | finish =>
    obtain ⟨root, stack, functions⟩ := l
    cases stack with
    | nil => cases h
    | cons top rest =>
      cases h
      exact .finish (decide_eq_true text) rfl
  | otherwise =>
    obtain ⟨root, stack, functions⟩ := l
    cases stack with
    | nil => cases h
    | cons top rest =>
      obtain ⟨line, head, body⟩ := top
      cases head with
      | branch condition =>
        cases h
        exact .turn (decide_eq_true text) rfl
      | function | otherwise | loop => cases h
  | function header =>
    cases h
    exact .start _ (text ▸ header.opens)
  | branch condition =>
    cases h
    exact .start _ ⟨text ▸ condition.opens "if", not_hasElse_nil⟩
  | loop condition =>
    cases h
    exact .start _ (text ▸ condition.opens "while")
  | plain p =>
    cases h
    rw [Sentence.text_plain] at text
    refine .plain _ ?_ ?_ ?_
    · rw [← Bool.not_eq_true, isHead, decide_eq_true_iff, text]
      rintro (opens | opens | opens)
      · exact p.no_function opens
      · exact p.no_branch opens
      · exact p.no_loop opens
    · rw [isEnd, text]
      exact decide_eq_false p.ne_finish
    · rw [isElse, text]
      exact decide_eq_false p.ne_otherwise

/-- A line with blanks around a sentence is taken in like the sentence. -/
lemma addText_of_trim {raw : List Char} {s : Sentence} (text : trim raw = s.text) (l : Layout)
    (k : Nat) : l.addText k raw = l.addRow ⟨k, s⟩ := by
  rw [← addText_sentence, addText, addText, text, trim_bare s.bare]

/-- A line is taken in as what it says. -/
lemma takes_of_addText {l l' : Layout} {k : Nat} {raw : List Char}
    (h : l.addText k raw = .ok l') : l.Takes k raw l' := by
  obtain silent | ⟨left, cs, right, blank, blank', bare, rfl⟩ := silent_or_padded raw
  · rw [addText_silent silent] at h
    cases h
    exact takes_silent silent l k
  · rw [addText_padded blank blank' bare] at h
    obtain ⟨s, rfl⟩ := exists_sentence_of_addText bare h
    rw [addText_sentence, addRow] at h
    split at h
    · cases h
    · next added =>
      cases h
      exact takes_sentence (trim_padded blank blank' bare.toTrimmed) added

/-- A line keeps the account of the open blocks. -/
lemma Takes.openAfter {l l' : Layout} {rows : List (List Char)} {raw : List Char}
    (h : l.Takes (rows.length + 1) raw l') (account : OpenAfter rows l.stack) :
    OpenAfter (rows ++ [raw]) l'.stack := by
  cases h with
  | silent no_head no_end no_else => exact account.concat no_head no_end no_else
  | plain s no_head no_end no_else => exact (account.concat no_head no_end no_else).push s
  | start head suits => exact .opened account rfl suits .nil
  | finish finish stack =>
    rw [stack] at account
    obtain ⟨before, head, inside, rfl, outer, -, suits, enclosed⟩ := account.inv
    rw [List.append_assoc, List.cons_append]
    exact (outer.append_block suits.isHead enclosed finish).close _
  | turn turns stack =>
    rw [stack] at account
    obtain ⟨before, head, inside, rfl, outer, line, suits, enclosed⟩ := account.inv
    rw [List.append_assoc, List.cons_append]
    exact .opened outer line ⟨suits.1, inside, _, [], rfl, enclosed, turns⟩
      (enclosed.concat (isHead_of_isElse turns) (isEnd_of_isElse turns))

/-- Lines are taken in one after the other. -/
lemma addLines_append (l : Layout) (k : Nat) (rows rows' : List (List Char)) :
    l.addLines k (rows ++ rows') =
      l.addLines k rows >>= fun l' => l'.addLines (k + rows.length) rows' := by
  induction rows generalizing l k with
  | nil => rfl
  | cons raw rows ih =>
    rw [List.cons_append, addLines, addLines]
    cases l.addText k raw with
    | error e => rfl
    | ok l₁ =>
      have shift : k + (raw :: rows).length = k + 1 + rows.length := by
        rw [List.length_cons]
        omega
      rw [shift]
      exact ih l₁ (k + 1)

/-- Lines keep the account of the open blocks. -/
lemma openAfter_addLines {l l' : Layout} {before rows : List (List Char)}
    (account : OpenAfter before l.stack)
    (h : l.addLines (before.length + 1) rows = .ok l') : OpenAfter (before ++ rows) l'.stack := by
  induction rows generalizing l before with
  | nil =>
    cases h
    rwa [List.append_nil]
  | cons raw rows ih =>
    rw [addLines] at h
    cases added : l.addText (before.length + 1) raw with
    | error e =>
      rw [added] at h
      cases h
    | ok l₁ =>
      rw [added] at h
      have next := (takes_of_addText added).openAfter account
      have read : l₁.addLines ((before ++ [raw]).length + 1) rows = .ok l' := by
        rw [List.length_append]
        exact h
      have whole := ih next read
      rwa [List.append_assoc] at whole

/-- The open blocks after the first lines of a text. -/
lemma openAfter_empty_addLines {l : Layout} {rows : List (List Char)}
    (h : empty.addLines 1 rows = .ok l) : OpenAfter rows l.stack := by
  have none_open : OpenAfter [] empty.stack := .closed .nil
  exact openAfter_addLines none_open h

end Layout

namespace Script

/-- The lines of a text. What follows the last line break is a line only if it is not empty. -/
def rows (text : List Char) : List (List Char) :=
  if (lines text).getLast? = some [] then (lines text).dropLast else lines text

/-- A text with the given lines. -/
def ofRows (rows : List (List Char)) : List Char := rows.flatMap (· ++ ['\n'])

/-- An empty line at the end says nothing. -/
lemma parse_eq (text : List Char) :
    parse text = Layout.toScript <$> Layout.empty.addLines 1 (rows text) := by
  have read : Layout.empty.addLines 1 (lines text) = Layout.empty.addLines 1 (rows text) := by
    rw [rows]
    split
    · next last =>
      obtain ⟨before, split⟩ := List.getLast?_eq_some_iff.mp last
      have nothing : Silent [] := .inl (List.forall_mem_nil _)
      rw [split, List.dropLast_concat, Layout.addLines_append]
      cases Layout.empty.addLines 1 before with
      | error e => rfl
      | ok l =>
        change l.addLines (1 + before.length) [[]] = .ok l
        rw [Layout.addLines, Layout.addText_silent nothing]
        rfl
    · rfl
  rw [parse, read]
  rfl

/-- The first piece ends at the first separator. -/
lemma pieces_append {r : List Char} (inside : '\n' ∉ r) (rest : List Char) :
    Line.pieces '\n' (r ++ '\n' :: rest) = r :: Line.pieces '\n' rest := by
  induction r with
  | nil => rfl
  | cons c r ih =>
    have other : c ≠ '\n' := fun same => inside (same ▸ List.mem_cons_self)
    rw [List.cons_append, Line.pieces, if_neg other,
      ih fun mem => inside (List.mem_cons_of_mem _ mem)]

/-- A text made of lines has these lines. -/
lemma rows_ofRows {rs : List (List Char)} (inside : ∀ r ∈ rs, '\n' ∉ r) :
    rows (ofRows rs) = rs := by
  have split : lines (ofRows rs) = rs ++ [[]] := by
    induction rs with
    | nil => rfl
    | cons r rs ih =>
      have rest := ih fun r hr => inside r (List.mem_cons_of_mem _ hr)
      rw [ofRows, List.flatMap_cons, List.append_assoc, List.singleton_append, lines,
        pieces_append (inside r List.mem_cons_self)]
      exact congrArg (r :: ·) rest
  rw [rows, split, List.getLast?_concat, if_pos rfl, List.dropLast_concat]

/-- A line has no line break. -/
lemma not_mem_of_mem_rows {text raw : List Char} (mem : raw ∈ rows text) : '\n' ∉ raw := by
  have whole : raw ∈ lines text := by
    rw [rows] at mem
    split at mem
    · exact (List.dropLast_sublist _).subset mem
    · exact mem
  rw [lines, pieces_eq_splitOn] at whole
  exact not_mem_of_mem_splitOn whole

/-- The open blocks after the lines of a script. -/
lemma exists_layout {text : List Char} {script : Script} (parsed : parse text = .ok script) :
    ∃ l : Layout, Layout.empty.addLines 1 (rows text) = .ok l ∧ script = l.toScript ∧
      OpenAfter (rows text) l.stack := by
  rw [parse_eq] at parsed
  cases read : Layout.empty.addLines 1 (rows text) with
  | error e =>
    rw [read] at parsed
    cases parsed
  | ok l =>
    rw [read] at parsed
    cases parsed
    exact ⟨l, rfl, rfl, Layout.openAfter_empty_addLines read⟩

end Script

end Linework
