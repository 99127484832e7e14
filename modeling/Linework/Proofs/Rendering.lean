import Mathlib.Logic.ExistsUnique
import Linework.Proofs.Sentence

/-!
# Scripts as written trees

A script is read from lines, and what it amounts to is a tree. `Outline` is that tree, with its
functions where they stand; `Outline.rows` writes it down, one sentence a line. A text renders an
outline if these are its sentences, whatever blanks stand around them and whatever silent lines
between them. Reading inverts rendering.
-/

namespace Linework

/-- A sentence with the number of its line. -/
structure Row where
  number : Nat
  sentence : Sentence

/-- An item of a script. It carries the numbers of the lines on which it begins, turns to its other
block and ends. -/
inductive Item where
  | plain (line : Nat) (statement : Plain)
  /-- A branch without another block. -/
  | branch (line : Nat) (condition : Condition) (yes : List Item) (last : Nat)
  /-- A branch with another block. -/
  | fork (line : Nat) (condition : Condition) (yes : List Item) (turn : Nat) (no : List Item)
      (last : Nat)
  | loop (line : Nat) (condition : Condition) (body : List Item) (last : Nat)
  | function (line : Nat) (header : Header) (body : List Item) (last : Nat)

/-- A script as a tree. -/
abbrev Outline := List Item

mutual

/-- The lines of an item. -/
@[simp] def Item.rows : Item → List Row
  | .plain line statement => [⟨line, .plain statement⟩]
  | .branch line condition yes last =>
    ⟨line, .branch condition⟩ :: (Outline.rows yes ++ [⟨last, .finish⟩])
  | .fork line condition yes turn no last =>
    ⟨line, .branch condition⟩ ::
      (Outline.rows yes ++ ⟨turn, .otherwise⟩ :: (Outline.rows no ++ [⟨last, .finish⟩]))
  | .loop line condition body last =>
    ⟨line, .loop condition⟩ :: (Outline.rows body ++ [⟨last, .finish⟩])
  | .function line header body last =>
    ⟨line, .function header⟩ :: (Outline.rows body ++ [⟨last, .finish⟩])

/-- The lines of items, one after the other. -/
@[simp] def Outline.rows : Outline → List Row
  | [] => []
  | item :: items => item.rows ++ Outline.rows items

end

mutual

/-- The statement of an item. A function is none. -/
@[simp] def Item.statements : Item → Block
  | .plain line statement => [.plain line statement.instruction]
  | .branch line condition yes _ => [.branch line condition.formula (Outline.block yes) none]
  | .fork line condition yes _ no _ =>
    [.branch line condition.formula (Outline.block yes) (some (Outline.block no))]
  | .loop line condition body _ => [.loop line condition.formula (Outline.block body)]
  | .function _ _ _ _ => []

/-- The statements of items, without their functions. -/
@[simp] def Outline.block : Outline → Block
  | [] => []
  | item :: items => item.statements ++ Outline.block items

end

mutual

/-- The functions within an item, in the order in which they end. -/
@[simp] def Item.definitions : Item → List Definition
  | .plain _ _ => []
  | .branch _ _ yes _ => Outline.definitions yes
  | .fork _ _ yes _ no _ => Outline.definitions yes ++ Outline.definitions no
  | .loop _ _ body _ => Outline.definitions body
  | .function _ header body _ =>
    Outline.definitions body ++
      [⟨String.ofList header.name, Line.readParams header.inner, Outline.block body⟩]

/-- The functions within items, in the order in which they end. -/
@[simp] def Outline.definitions : Outline → List Definition
  | [] => []
  | item :: items => item.definitions ++ Outline.definitions items

end

/-- Lines of text that hold sentences with these numbers, and are silent otherwise. The first line
has the given number. -/
inductive Sheet : Nat → List (List Char) → List Row → Prop where
  | done {k : Nat} : Sheet k [] []
  | silent {k : Nat} {raw : List Char} {raws : List (List Char)} {rows : List Row}
      (nothing : Silent raw) (rest : Sheet (k + 1) raws rows) : Sheet k (raw :: raws) rows
  | row {k : Nat} {left right : List Char} {s : Sentence} {raws : List (List Char)}
      {rows : List Row} (blank : Blank left) (blank' : Blank right)
      (rest : Sheet (k + 1) raws rows) :
      Sheet k ((left ++ s.text ++ right) :: raws) (⟨k, s⟩ :: rows)

/-- A text whose lines hold the sentences of an outline. -/
def Renders (outline : Outline) (text : List Char) : Prop :=
  ∃ raws, raws ≠ [] ∧ (∀ raw ∈ raws, '\n' ∉ raw) ∧ text = ['\n'].intercalate raws ∧
    Sheet 1 raws outline.rows

namespace Layout

/-- Takes in a sentence. -/
def addRow (l : Layout) (row : Row) : Except LayoutError Layout :=
  match l.add row.number row.sentence.meaning with
  | .error cause => .error ⟨row.number, cause⟩
  | .ok l => .ok l

/-- Takes in sentences one after the other. -/
def addRows (l : Layout) : List Row → Except LayoutError Layout
  | [] => .ok l
  | row :: rows => do
    let l ← l.addRow row
    l.addRows rows

/-- A silent line changes nothing. -/
lemma addText_silent {raw : List Char} (silent : Silent raw) (l : Layout) (k : Nat) :
    l.addText k raw = .ok l := by
  rw [addText]
  simp only [isSilent_trim silent, if_true]

/-- Blanks around a line change nothing. -/
lemma addText_padded {left cs right : List Char} (blank : Blank left) (blank' : Blank right)
    (bare : Bare cs) (l : Layout) (k : Nat) :
    l.addText k (left ++ cs ++ right) = l.addText k cs := by
  rw [addText, addText, trim_padded blank blank' bare.toTrimmed, trim_bare bare]

/-- The text of a sentence is taken in as the sentence. -/
lemma addText_sentence (l : Layout) (k : Nat) (s : Sentence) :
    l.addText k s.text = l.addRow ⟨k, s⟩ := by
  rw [addText, trim_bare s.bare]
  simp only [isSilent_of_bare s.bare, Bool.false_eq_true, if_false, s.read_text]
  rfl

/-- A line that is taken in and not silent is a sentence. -/
lemma exists_sentence_of_addText {l l' : Layout} {k : Nat} {cs : List Char} (bare : Bare cs)
    (h : l.addText k cs = .ok l') : ∃ s : Sentence, s.text = cs := by
  rw [addText, trim_bare bare] at h
  simp only [isSilent_of_bare bare, Bool.false_eq_true, if_false] at h
  cases read : Line.read cs with
  | error cause =>
    rw [read] at h
    cases h
  | ok said =>
    obtain ⟨s, text_eq, -⟩ := exists_sentence_of_read bare read
    exact ⟨s, text_eq⟩

/-- The lines of a sheet are taken in as its sentences. -/
lemma addLines_sheet {k : Nat} {raws : List (List Char)} {rows : List Row}
    (sheet : Sheet k raws rows) (l : Layout) : l.addLines k raws = l.addRows rows := by
  induction sheet generalizing l with
  | done => rfl
  | silent nothing rest ih =>
    rw [addLines, addText_silent nothing]
    exact ih l
  | @row k left right s raws rows blank blank' rest ih =>
    rw [addLines, addRows, addText_padded blank blank' s.bare, addText_sentence]
    cases l.addRow ⟨k, s⟩ with
    | error e => rfl
    | ok l' => exact ih l'

/-- Adds statements to the innermost open block, and functions to those that have ended. -/
def extend (l : Layout) (statements : Block) (definitions : List Definition) : Layout :=
  match l.stack with
  | [] =>
    { l with
      root := statements.reverse ++ l.root
      functions := definitions.reverse ++ l.functions }
  | top :: rest =>
    { l with
      stack := { top with body := statements.reverse ++ top.body } :: rest
      functions := definitions.reverse ++ l.functions }

/-- Adding nothing changes nothing. -/
lemma extend_nil (l : Layout) : l.extend [] [] = l := by
  obtain ⟨root, stack, functions⟩ := l
  cases stack <;> rfl

/-- What is added one after the other may be added at once. -/
lemma extend_extend (l : Layout) (statements statements' : Block)
    (definitions definitions' : List Definition) :
    (l.extend statements definitions).extend statements' definitions' =
      l.extend (statements ++ statements') (definitions ++ definitions') := by
  obtain ⟨root, stack, functions⟩ := l
  cases stack <;> simp [extend]

/-- A statement is added to the innermost block. -/
lemma push_eq_extend (l : Layout) (s : Statement) : l.push s = l.extend [s] [] := by
  obtain ⟨root, stack, functions⟩ := l
  cases stack <;> rfl

/-- The block that a line has begun ends with what stands in it. -/
lemma add_finish (l : Layout) (k last : Nat) (head : OpenBlock.Head) (statements : Block)
    (definitions : List Definition) :
    ((l.start k head).extend statements definitions).add last .finish =
      .ok ((l.extend [] definitions).close ⟨k, head, statements.reverse⟩) := by
  obtain ⟨root, stack, functions⟩ := l
  cases stack <;> simp [start, extend, add, finish]

/-- A branch turns to its other block, with what stands in the first one. -/
lemma add_otherwise (l : Layout) (k turn : Nat) (condition : Formula) (statements : Block)
    (definitions : List Definition) :
    ((l.start k (.branch condition)).extend statements definitions).add turn .otherwise =
      .ok ((l.extend [] definitions).start k (.otherwise condition statements)) := by
  obtain ⟨root, stack, functions⟩ := l
  cases stack <;> simp [start, extend, add, Layout.turn]

/-- A function that ends comes after the functions within it. -/
lemma close_function (l : Layout) (k : Nat) (name : String) (params : List String)
    (statements : Block) (definitions : List Definition) :
    (l.extend [] definitions).close ⟨k, .function name params, statements.reverse⟩ =
      l.extend [] (definitions ++ [⟨name, params, statements⟩]) := by
  obtain ⟨root, stack, functions⟩ := l
  cases stack <;> simp [extend, close]

/-- The first sentence is taken in before the others. -/
lemma addRows_cons {l l' : Layout} (row : Row)
    (h : l.add row.number row.sentence.meaning = .ok l') (rows : List Row) :
    l.addRows (row :: rows) = l'.addRows rows := by
  rw [addRows, addRow, h]
  rfl

/-- A block is closed with what its lines say, if these are taken in as such. -/
lemma addRows_body {items : Outline} (body : ∀ (l : Layout) rest,
      l.addRows (items.rows ++ rest) = (l.extend items.block items.definitions).addRows rest)
    (l : Layout) (k : Nat) (head : OpenBlock.Head) (last : Nat) (rest : List Row) :
    (l.start k head).addRows (items.rows ++ ⟨last, .finish⟩ :: rest) =
      ((l.extend [] items.definitions).close ⟨k, head, items.block.reverse⟩).addRows rest := by
  rw [body]
  exact addRows_cons ⟨last, .finish⟩ (add_finish l k last head _ _) rest

mutual

/-- Taking in the lines of an item adds what the item amounts to, wherever it stands. -/
lemma addRows_item (l : Layout) (rest : List Row) : (item : Item) →
    l.addRows (item.rows ++ rest) = (l.extend item.statements item.definitions).addRows rest
  | .plain line statement => by
    rw [Item.rows, List.singleton_append, addRows_cons _ rfl, push_eq_extend]
    rfl
  | .branch line condition yes last => by
    rw [Item.rows, List.cons_append, List.append_assoc, addRows_cons _ rfl, List.singleton_append,
      addRows_body fun l rest => addRows_outline l rest yes]
    simp [close, push_eq_extend, extend_extend]
  | .fork line condition yes turn no last => by
    rw [Item.rows, List.cons_append, List.append_assoc, addRows_cons _ rfl, addRows_outline,
      List.cons_append, addRows_cons ⟨turn, .otherwise⟩ (add_otherwise l line turn _ _ _),
      List.append_assoc, List.singleton_append,
      addRows_body fun l rest => addRows_outline l rest no]
    simp [close, push_eq_extend, extend_extend]
  | .loop line condition body last => by
    rw [Item.rows, List.cons_append, List.append_assoc, addRows_cons _ rfl, List.singleton_append,
      addRows_body fun l rest => addRows_outline l rest body]
    simp [close, push_eq_extend, extend_extend]
  | .function line header body last => by
    rw [Item.rows, List.cons_append, List.append_assoc, addRows_cons _ rfl, List.singleton_append,
      addRows_body fun l rest => addRows_outline l rest body, close_function]
    rfl

/-- Taking in the lines of items adds their statements and functions. -/
lemma addRows_outline (l : Layout) (rest : List Row) : (items : Outline) →
    l.addRows (items.rows ++ rest) = (l.extend items.block items.definitions).addRows rest
  | [] => by
    rw [Outline.rows, List.nil_append, Outline.block, Outline.definitions, extend_nil]
  | item :: items => by
    rw [Outline.rows, List.append_assoc, addRows_item, addRows_outline, extend_extend,
      Outline.block, Outline.definitions]

end

end Layout

/-- Nothing, or lines that begin with the end of a block or with a turn to its other one. -/
def Closes (rows : List Row) : Prop :=
  ∀ row ∈ rows.head?, row.sentence = .finish ∨ row.sentence = .otherwise

/-- Nothing is left to close the items before. -/
lemma closes_nil : Closes [] := by
  intro row h
  cases h

/-- An end closes the items before it. -/
lemma closes_finish (k : Nat) (rows : List Row) : Closes (⟨k, .finish⟩ :: rows) := by
  rintro row ⟨⟩
  exact .inl rfl

/-- An `else` closes the items before it. -/
lemma closes_otherwise (k : Nat) (rows : List Row) : Closes (⟨k, .otherwise⟩ :: rows) := by
  rintro row ⟨⟩
  exact .inr rfl

/-- An item closes nothing before it. -/
lemma Item.not_closes (item : Item) (rest : List Row) : ¬ Closes (item.rows ++ rest) := by
  intro closes
  cases item <;> obtain h | h := closes _ rfl <;> cases h

mutual

/-- No item goes on where another one ends. -/
lemma Item.rows_inj {rest rest' : List Row} : (item item' : Item) →
    item.rows ++ rest = item'.rows ++ rest' → item = item' ∧ rest = rest'
  | .plain line statement, item', h => by
    cases item' with
    | plain =>
      cases h
      exact ⟨rfl, rfl⟩
    | _ => cases h
  | .branch line condition yes last, item', h => by
    cases item' with
    | branch line' condition' yes' last' =>
      simp only [Item.rows, List.cons_append, List.append_assoc, List.cons.injEq] at h
      obtain ⟨rfl, rest_eq⟩ := Outline.rows_inj (closes_finish _ _) (closes_finish _ _) yes yes' h.2
      cases h.1
      cases rest_eq
      exact ⟨rfl, rfl⟩
    | fork line' condition' yes' turn no last' =>
      -- the heads agree, but one block ends where the other is turned
      simp only [Item.rows, List.cons_append, List.append_assoc, List.cons.injEq] at h
      cases (Outline.rows_inj (closes_finish _ _) (closes_otherwise _ _) yes yes' h.2).2
    | _ => cases h
  | .fork line condition yes turn no last, item', h => by
    cases item' with
    | branch line' condition' yes' last' =>
      simp only [Item.rows, List.cons_append, List.append_assoc, List.cons.injEq] at h
      cases (Outline.rows_inj (closes_otherwise _ _) (closes_finish _ _) yes yes' h.2).2
    | fork line' condition' yes' turn' no' last' =>
      simp only [Item.rows, List.cons_append, List.append_assoc, List.cons.injEq] at h
      obtain ⟨rfl, no_eq⟩ :=
        Outline.rows_inj (closes_otherwise _ _) (closes_otherwise _ _) yes yes' h.2
      rw [List.cons.injEq] at no_eq
      obtain ⟨rfl, rest_eq⟩ :=
        Outline.rows_inj (closes_finish _ _) (closes_finish _ _) no no' no_eq.2
      cases h.1
      cases no_eq.1
      cases rest_eq
      exact ⟨rfl, rfl⟩
    | _ => cases h
  | .loop line condition body last, item', h => by
    cases item' with
    | loop line' condition' body' last' =>
      simp only [Item.rows, List.cons_append, List.append_assoc, List.cons.injEq] at h
      obtain ⟨rfl, rest_eq⟩ :=
        Outline.rows_inj (closes_finish _ _) (closes_finish _ _) body body' h.2
      cases h.1
      cases rest_eq
      exact ⟨rfl, rfl⟩
    | _ => cases h
  | .function line header body last, item', h => by
    cases item' with
    | function line' header' body' last' =>
      simp only [Item.rows, List.cons_append, List.append_assoc, List.cons.injEq] at h
      obtain ⟨rfl, rest_eq⟩ :=
        Outline.rows_inj (closes_finish _ _) (closes_finish _ _) body body' h.2
      cases h.1
      cases rest_eq
      exact ⟨rfl, rfl⟩
    | _ => cases h

/-- An outline can be told from its lines and what stands after them. -/
lemma Outline.rows_inj {rest rest' : List Row} (closes : Closes rest) (closes' : Closes rest') :
    (items items' : Outline) → items.rows ++ rest = items'.rows ++ rest' →
      items = items' ∧ rest = rest'
  | [], [], h => ⟨rfl, h⟩
  | [], item' :: items', h => by
    rw [Outline.rows, Outline.rows, List.nil_append, List.append_assoc] at h
    exact absurd (h ▸ closes) (item'.not_closes _)
  | item :: items, [], h => by
    rw [Outline.rows, Outline.rows, List.nil_append, List.append_assoc] at h
    exact absurd (h ▸ closes') (item.not_closes _)
  | item :: items, item' :: items', h => by
    rw [Outline.rows, Outline.rows, List.append_assoc, List.append_assoc] at h
    obtain ⟨rfl, items_eq⟩ := Item.rows_inj item item' h
    obtain ⟨rfl, rest_eq⟩ := Outline.rows_inj closes closes' items items' items_eq
    exact ⟨rfl, rest_eq⟩

end

namespace Layout

/-- A statement opens and closes nothing. -/
lemma length_stack_push (l : Layout) (s : Statement) :
    (l.push s).stack.length = l.stack.length := by
  obtain ⟨root, stack, functions⟩ := l
  cases stack <;> rfl

/-- Adding statements and functions opens and closes nothing. -/
lemma length_stack_extend (l : Layout) (statements : Block) (definitions : List Definition) :
    (l.extend statements definitions).stack.length = l.stack.length := by
  obtain ⟨root, stack, functions⟩ := l
  cases stack <;> rfl

/-- A block that has been closed opens nothing. -/
lemma length_stack_close (l : Layout) (b : OpenBlock) :
    (l.close b).stack.length = l.stack.length := by
  obtain ⟨line, head, body⟩ := b
  cases head with
  | function => rfl
  | branch | otherwise | loop => exact length_stack_push l _

/-- Only the first block of a branch is turned. -/
lemma add_otherwise_eq_ok {l l' : Layout} {k turn : Nat} {head : OpenBlock.Head}
    {statements : Block} {definitions : List Definition}
    (h : ((l.start k head).extend statements definitions).add turn .otherwise = .ok l') :
    ∃ condition, head = .branch condition ∧
      l' = (l.extend [] definitions).start k (.otherwise condition statements) := by
  cases head with
  | branch condition =>
    rw [add_otherwise] at h
    exact ⟨condition, rfl, (Except.ok.inj h).symm⟩
  | function | otherwise | loop => cases h

/-- If all sentences are taken in, so is the first one. -/
lemma eq_ok_of_addRows {l l' : Layout} {row : Row} {rows : List Row}
    (h : l.addRows (row :: rows) = .ok l') :
    ∃ l₁, l.add row.number row.sentence.meaning = .ok l₁ ∧ l₁.addRows rows = .ok l' := by
  rw [addRows, addRow] at h
  cases added : l.add row.number row.sentence.meaning with
  | error cause =>
    rw [added] at h
    cases h
  | ok l₁ =>
    rw [added] at h
    exact ⟨l₁, rfl, h⟩

/-- Lines that begin with an outline, if they leave no more blocks open than there were. -/
def Splits (rows : List Row) : Prop :=
  ∀ {l l' : Layout}, l.addRows rows = .ok l' → l'.stack.length ≤ l.stack.length →
    ∃ (items : Outline) (rest : List Row), rows = items.rows ++ rest ∧ Closes rest

/-- A block that does not stay open is ended or turned by a line. -/
lemma exists_body {rows : List Row} (splits : Splits rows) {l l' : Layout} {k : Nat}
    {head : OpenBlock.Head} (h : (l.start k head).addRows rows = .ok l')
    (le : l'.stack.length ≤ l.stack.length) :
    ∃ (body : Outline) (row : Row) (rest : List Row), rows = body.rows ++ row :: rest ∧
      (row.sentence = .finish ∨ row.sentence = .otherwise) ∧
      ((l.start k head).extend body.block body.definitions).addRows (row :: rest) = .ok l' := by
  obtain ⟨body, rest, rfl, closes⟩ := splits h (Nat.le_succ_of_le le)
  rw [addRows_outline] at h
  cases rest with
  | nil =>
    cases h
    rw [length_stack_extend] at le
    exact absurd le (Nat.not_succ_le_self _)
  | cons row rest => exact ⟨body, row, rest, rfl, closes row rfl, h⟩

/-- After the end of a block there are items again. -/
lemma exists_after_finish {rest : List Row} (splits : Splits rest) {l l' : Layout} {k last : Nat}
    {head : OpenBlock.Head} {statements : Block} {definitions : List Definition}
    (h : ((l.start k head).extend statements definitions).addRows (⟨last, .finish⟩ :: rest) =
      .ok l')
    (le : l'.stack.length ≤ l.stack.length) :
    ∃ (items : Outline) (rest' : List Row), rest = items.rows ++ rest' ∧ Closes rest' := by
  rw [addRows_cons _ (add_finish l k last head statements definitions)] at h
  refine splits h ?_
  rw [length_stack_close, length_stack_extend]
  exact le

/-- The lines after the head of a block: the block, its end and more, or the first block of a
branch, the turn, the other block, its end and more. -/
lemma exists_block {n : Nat} (splits : ∀ {rows : List Row}, rows.length ≤ n → Splits rows)
    {rows : List Row} (short : rows.length ≤ n) {l l' : Layout} {k : Nat} {head : OpenBlock.Head}
    (h : (l.start k head).addRows rows = .ok l') (le : l'.stack.length ≤ l.stack.length) :
    ∃ (body : Outline) (rest : List Row), Closes rest ∧
      ((∃ last items, rows = body.rows ++ ⟨last, .finish⟩ :: (Outline.rows items ++ rest)) ∨
        (∃ condition, head = .branch condition) ∧
          ∃ turn no last items, rows = body.rows ++ ⟨turn, .otherwise⟩ ::
            (Outline.rows no ++ ⟨last, .finish⟩ :: (Outline.rows items ++ rest))) := by
  obtain ⟨body, ⟨number, sentence⟩, rest, rfl, closing, closed⟩ := exists_body (splits short) h le
  rw [List.length_append, List.length_cons] at short
  cases closing with
  | inl finish =>
    cases finish
    obtain ⟨items, rest', rfl, closes⟩ := exists_after_finish (splits (by omega)) closed le
    exact ⟨body, rest', closes, .inl ⟨number, items, rfl⟩⟩
  | inr otherwise =>
    cases otherwise
    obtain ⟨l₁, turned, opened⟩ := eq_ok_of_addRows closed
    obtain ⟨condition, rfl, rfl⟩ := add_otherwise_eq_ok turned
    have le₁ : l'.stack.length ≤ (l.extend [] body.definitions).stack.length := by
      rw [length_stack_extend]
      exact le
    obtain ⟨no, ⟨last, sentence⟩, rest₁, rfl, closing, closed₁⟩ :=
      exists_body (splits (by omega)) opened le₁
    rw [List.length_append, List.length_cons] at short
    cases closing with
    | inl finish =>
      cases finish
      obtain ⟨items, rest', rfl, closes⟩ := exists_after_finish (splits (by omega)) closed₁ le₁
      exact ⟨body, rest', closes, .inr ⟨⟨condition, rfl⟩, number, no, last, items, rfl⟩⟩
    | inr otherwise =>
      -- the other block of a branch cannot be turned again
      cases otherwise
      obtain ⟨l₂, turned, -⟩ := eq_ok_of_addRows closed₁
      obtain ⟨_, not_branch, -⟩ := add_otherwise_eq_ok turned
      cases not_branch

/-- Lines that leave no more blocks open than there were begin with an outline. -/
lemma splits_of_length_le (n : Nat) : ∀ {rows : List Row}, rows.length ≤ n → Splits rows := by
  -- on the number of lines, since where a block ends is only known once its lines are split
  induction n with
  | zero =>
    intro rows short l l' _ _
    rw [List.eq_nil_of_length_eq_zero (Nat.le_zero.mp short)]
    exact ⟨[], [], rfl, closes_nil⟩
  | succ n ih =>
    intro rows short l l' h le
    cases rows with
    | nil => exact ⟨[], [], rfl, closes_nil⟩
    | cons row rows =>
      obtain ⟨k, s⟩ := row
      have shorter : rows.length ≤ n := Nat.le_of_succ_le_succ short
      cases s with
      | finish => exact ⟨[], _, rfl, closes_finish k rows⟩
      | otherwise => exact ⟨[], _, rfl, closes_otherwise k rows⟩
      | plain p =>
        rw [addRows_cons _ rfl] at h
        obtain ⟨items, rest, rfl, closes⟩ := ih shorter h (by rw [length_stack_push]; exact le)
        exact ⟨.plain k p :: items, rest, rfl, closes⟩
      | function header =>
        rw [addRows_cons _ rfl] at h
        obtain ⟨body, rest, closes, ⟨last, items, rfl⟩ | ⟨⟨_, no⟩, -⟩⟩ :=
          exists_block ih shorter h le
        · exact ⟨.function k header body last :: items, rest, by simp, closes⟩
        · cases no
      | branch c =>
        rw [addRows_cons _ rfl] at h
        obtain ⟨body, rest, closes, ⟨last, items, rfl⟩ | ⟨-, turn, no, last, items, rfl⟩⟩ :=
          exists_block ih shorter h le
        · exact ⟨.branch k c body last :: items, rest, by simp, closes⟩
        · exact ⟨.fork k c body turn no last :: items, rest, by simp, closes⟩
      | loop c =>
        rw [addRows_cons _ rfl] at h
        obtain ⟨body, rest, closes, ⟨last, items, rfl⟩ | ⟨⟨_, no⟩, -⟩⟩ :=
          exists_block ih shorter h le
        · exact ⟨.loop k c body last :: items, rest, by simp, closes⟩
        · cases no

/-- Lines that form blocks, all of them ended, are those of an outline. -/
lemma exists_outline {rows : List Row} {l : Layout} (h : empty.addRows rows = .ok l)
    (ended : l.stack = []) : ∃ items : Outline, rows = items.rows := by
  have le : l.stack.length ≤ empty.stack.length := by
    rw [ended]
    exact Nat.le_refl 0
  obtain ⟨items, rest, rfl, closes⟩ := splits_of_length_le rows.length (Nat.le_refl _) h le
  cases rest with
  | nil => exact ⟨items, List.append_nil _⟩
  | cons row rest =>
    rw [addRows_outline] at h
    obtain ⟨l₁, added, -⟩ := eq_ok_of_addRows h
    obtain ⟨k, s⟩ := row
    obtain same | same := closes _ rfl
    · cases same
      cases added
    · cases same
      cases added

end Layout

namespace Sheet

/-- Lines that are taken in hold sentences. -/
lemma exists_of_addLines {k : Nat} {raws : List (List Char)} {l l' : Layout}
    (h : l.addLines k raws = .ok l') : ∃ rows, Sheet k raws rows := by
  induction raws generalizing k l with
  | nil => exact ⟨[], .done⟩
  | cons raw raws ih =>
    obtain silent | ⟨left, cs, right, blank, blank', bare, rfl⟩ := silent_or_padded raw
    · rw [Layout.addLines, Layout.addText_silent silent] at h
      obtain ⟨rows, sheet⟩ := ih h
      exact ⟨rows, .silent silent sheet⟩
    · rw [Layout.addLines, Layout.addText_padded blank blank' bare] at h
      cases added : l.addText k cs with
      | error e =>
        rw [added] at h
        cases h
      | ok l₁ =>
        rw [added] at h
        obtain ⟨s, rfl⟩ := Layout.exists_sentence_of_addText bare added
        obtain ⟨rows, sheet⟩ := ih h
        exact ⟨⟨k, s⟩ :: rows, .row blank blank' sheet⟩

/-- The first line of a sheet is silent or a sentence. -/
lemma cases_cons {k : Nat} {raw : List Char} {raws : List (List Char)} {rows : List Row}
    (h : Sheet k (raw :: raws) rows) :
    Silent raw ∧ Sheet (k + 1) raws rows ∨
    ∃ left s right rows₁, Blank left ∧ Blank right ∧ raw = left ++ Sentence.text s ++ right ∧
      rows = ⟨k, s⟩ :: rows₁ ∧ Sheet (k + 1) raws rows₁ := by
  cases h with
  | silent nothing rest => exact .inl ⟨nothing, rest⟩
  | row blank blank' rest => exact .inr ⟨_, _, _, _, blank, blank', rfl, rfl, rest⟩

/-- No sentence is silent. -/
lemma not_silent {left right : List Char} (blank : Blank left) (blank' : Blank right)
    (s : Sentence) : ¬ Silent (left ++ s.text ++ right) := by
  intro silent
  have := isSilent_trim silent
  rw [trim_padded blank blank' s.bare.toTrimmed, isSilent_of_bare s.bare] at this
  cases this

/-- The lines of a text hold only one list of sentences. -/
lemma unique {k : Nat} {raws : List (List Char)} {rows rows' : List Row} (h : Sheet k raws rows)
    (h' : Sheet k raws rows') : rows = rows' := by
  induction h generalizing rows' with
  | done =>
    cases h'
    rfl
  | silent nothing rest ih =>
    obtain ⟨-, rest'⟩ | ⟨left, s, right, rows₁, blank, blank', rfl, -⟩ := h'.cases_cons
    · exact ih rest'
    · exact absurd nothing (not_silent blank blank' s)
  | @row k left right s raws rows blank blank' rest ih =>
    obtain ⟨nothing, -⟩ | ⟨left₁, s₁, right₁, rows₁, blank₁, blank₁', split, rfl, rest'⟩ :=
      h'.cases_cons
    · exact absurd nothing (not_silent blank blank' s)
    · have text_eq : s.text = s₁.text := by
        rw [← trim_padded blank blank' s.bare.toTrimmed, split,
          trim_padded blank₁ blank₁' s₁.bare.toTrimmed]
      rw [Sentence.text_injective text_eq, ih rest']

end Sheet

/-- A text made of lines has these lines. -/
lemma lines_intercalate {raws : List (List Char)} (some_line : raws ≠ [])
    (inside : ∀ raw ∈ raws, '\n' ∉ raw) : Script.lines (['\n'].intercalate raws) = raws := by
  rw [Script.lines, pieces_eq_splitOn, List.splitOn_intercalate '\n' inside some_line]

/-- The script of an outline has no open block to warn of. -/
lemma Layout.toScript_outline (items : Outline) :
    (empty.extend items.block items.definitions).toScript =
      ⟨items.block, items.definitions, []⟩ := by
  simp [empty, extend, toScript, finishMany, warnings]

/-- A text renders an outline exactly if its lines hold the sentences of the outline. -/
lemma renders_iff {outline : Outline} {text : List Char} :
    Renders outline text ↔ Sheet 1 (Script.lines text) outline.rows := by
  constructor
  · rintro ⟨raws, some_line, inside, rfl, sheet⟩
    rw [lines_intercalate some_line inside]
    exact sheet
  · intro sheet
    rw [Script.lines, pieces_eq_splitOn] at sheet
    exact ⟨text.splitOn '\n', List.splitOn_ne_nil _ _, fun _ => not_mem_of_mem_splitOn,
      (List.intercalate_splitOn '\n').symm, sheet⟩

/-- A text renders at most one outline. -/
lemma Renders.unique {outline outline' : Outline} {text : List Char} (h : Renders outline text)
    (h' : Renders outline' text) : outline = outline' := by
  have rows_eq := (renders_iff.mp h).unique (renders_iff.mp h')
  have same : outline.rows ++ [] = outline'.rows ++ [] := by rw [rows_eq]
  exact (Outline.rows_inj closes_nil closes_nil outline outline' same).1

/-- A text that is read without warnings renders an outline. -/
lemma exists_renders {text : List Char} {script : Script} (parsed : Script.parse text = .ok script)
    (unwarned : script.warnings = []) : ∃ outline : Outline, Renders outline text := by
  rw [Script.parse] at parsed
  cases read : Layout.empty.addLines 1 (Script.lines text) with
  | error e =>
    rw [read] at parsed
    cases parsed
  | ok l =>
    rw [read] at parsed
    cases parsed
    obtain ⟨rows, sheet⟩ := Sheet.exists_of_addLines read
    rw [Layout.addLines_sheet sheet] at read
    obtain ⟨outline, rfl⟩ := Layout.exists_outline read (List.map_eq_nil_iff.mp unwarned)
    exact ⟨outline, renders_iff.mpr sheet⟩

/-- Reading a text that renders an outline gives the statements of the outline and its functions.
Every text that is read without a warning renders exactly one outline. -/
theorem parse_inverts_rendering (text : List Char) :
    (∀ outline : Outline, Renders outline text →
      Script.parse text = .ok ⟨outline.block, outline.definitions, []⟩) ∧
    ∀ script, Script.parse text = .ok script → script.warnings = [] →
      ∃! outline : Outline, Renders outline text := by
  constructor
  · intro outline renders
    have read := Layout.addRows_outline .empty [] outline
    rw [List.append_nil] at read
    rw [Script.parse, Layout.addLines_sheet (renders_iff.mp renders), read]
    exact congrArg _ (Layout.toScript_outline outline)
  · intro script parsed unwarned
    obtain ⟨outline, renders⟩ := exists_renders parsed unwarned
    exact ⟨outline, renders, fun _ renders' => renders'.unique renders⟩

/-- What a statement of one line is about. -/
def Instruction.subject : Instruction → String
  | .compute formula => formula.source
  | .declare name _ | .assign name _ _ => name
  | .yield _ => "return"
  | .exit word => word.text

/-- A statement in a list of all statements. The depth says how many blocks it stands in. -/
structure Entry where
  depth : Nat
  line : Nat
  subject : String
  deriving DecidableEq

mutual

/-- A statement and all that is in it. -/
def Statement.sketch (depth : Nat) : Statement → List Entry
  | .plain line i => [⟨depth, line, i.subject⟩]
  | .branch line condition yes no =>
    ⟨depth, line, condition.source⟩ :: sketchBlock (depth + 1) yes ++ sketchElse depth no
  | .loop line condition body => ⟨depth, line, condition.source⟩ :: sketchBlock (depth + 1) body
termination_by structural s => s

/-- The statements of a block and all that is in them. -/
def sketchBlock (depth : Nat) : List Statement → List Entry
  | [] => []
  | s :: rest => s.sketch depth ++ sketchBlock depth rest
termination_by structural b => b

/-- The other block of a branch and all that is in it. -/
def sketchElse (depth : Nat) : Option (List Statement) → List Entry
  | none => []
  | some b => ⟨depth, 0, "else"⟩ :: sketchBlock (depth + 1) b
termination_by structural b => b

end

/-- All statements of a script, and the lines of its warnings. -/
structure Sketch where
  /-- Each function with its parameters. -/
  functions : List (String × List String × List Entry)
  entries : List Entry
  warned : List Nat
  deriving DecidableEq

/-- A script with all that is in it. -/
def Script.sketch (script : Script) : Sketch where
  functions := script.functions.map fun d => (d.name, d.params, sketchBlock 0 d.body)
  entries := sketchBlock 0 script.block
  warned := script.warnings.map Diagnostic.line

/-- A branch with a function within a function in its first block, and a loop in the other one. -/
def nestedText : List Char :=
  ("// two functions\nif (a)\n  function outer (x)\n\n    function inner()\n    end\n" ++
    "    x = 1\n  end\n  inner()\nelse\n  while (b)\n    // leaves\n    break\n  end\n" ++
    "end\n").toList

/-- The functions stand in the order in which they end, and every block holds the statements within
it. -/
theorem parse_inverts_rendering_nested :
    ∃ outline : Outline, Renders outline nestedText ∧
      (∀ other, Renders other nestedText → other = outline) ∧
      Script.parse nestedText = .ok ⟨outline.block, outline.definitions, []⟩ ∧
      Script.sketch ⟨outline.block, outline.definitions, []⟩ =
        { functions := [("inner", [], []), ("outer", ["x"], [⟨0, 7, "x"⟩])]
          entries := [⟨0, 2, "(a)"⟩, ⟨1, 9, "inner()"⟩, ⟨0, 0, "else"⟩, ⟨1, 11, "(b)"⟩,
            ⟨2, 13, "break"⟩]
          warned := [] } := by
  have found : (Script.parse nestedText).toOption.map Script.sketch =
      some
        { functions := [("inner", [], []), ("outer", ["x"], [⟨0, 7, "x"⟩])]
          entries := [⟨0, 2, "(a)"⟩, ⟨1, 9, "inner()"⟩, ⟨0, 0, "else"⟩, ⟨1, 11, "(b)"⟩,
            ⟨2, 13, "break"⟩]
          warned := [] } := by
    decide +kernel
  cases parsed : Script.parse nestedText with
  | error e =>
    rw [parsed] at found
    cases found
  | ok script =>
    rw [parsed] at found
    have sketched := Option.some.inj found
    have unwarned : script.warnings = [] := List.map_eq_nil_iff.mp (congrArg Sketch.warned sketched)
    obtain ⟨outline, renders, unique⟩ :=
      (parse_inverts_rendering nestedText).2 script parsed unwarned
    have again := (parse_inverts_rendering nestedText).1 outline renders
    rw [parsed] at again
    cases again
    exact ⟨outline, renders, unique, rfl, sketched⟩

end Linework
