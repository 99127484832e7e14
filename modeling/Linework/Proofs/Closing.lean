import Linework.Proofs.OpenBlocks

/-!
# Blocks that the end of a script ends

The end of a script ends the blocks that are still open, as if their ends were written there. What
it warns about are the lines on which these blocks begin, innermost first.
-/

namespace Linework

open Text

/-- A block begins on the line of this number and does not end after it. -/
def Unended (rows : List (List Char)) (n : Nat) : Prop :=
  ∃ before raw after, rows = before ++ raw :: after ∧ n = before.length + 1 ∧
    isHead raw = true ∧ ¬ HasEnd after

namespace OpenAfter

variable {rows : List (List Char)} {stack : List OpenBlock}

/-- A block that is open has begun on one of the lines. -/
lemma line_le (h : OpenAfter rows stack) : ∀ b ∈ stack, b.line ≤ rows.length := by
  induction h with
  | closed => exact List.forall_mem_nil _
  | @opened before raw inside block stack _ line _ _ ih =>
    rw [List.length_append, List.length_cons]
    refine List.forall_mem_cons.mpr ⟨by omega, fun b mem => ?_⟩
    have earlier := ih b mem
    omega

/-- An open block begins after the blocks around it. -/
lemma pairwise_line (h : OpenAfter rows stack) :
    (stack.map OpenBlock.line).Pairwise (· > ·) := by
  induction h with
  | closed => exact .nil
  | @opened before raw inside block stack outer line _ _ ih =>
    refine .cons ?_ ih
    rintro n mem
    obtain ⟨b, inStack, rfl⟩ := List.mem_map.mp mem
    have earlier := outer.line_le b inStack
    omega

/-- A block that stands before the innermost open one, and outside of it, does not end in it. -/
lemma not_hasEnd_append {after inside : List (List Char)} {raw : List Char}
    (never : ¬ HasEnd after) (head : isHead raw = true) (enclosed : Enclosed inside) :
    ¬ HasEnd (after ++ raw :: inside) := by
  rintro ⟨within, last, rest, split, enclosed', finish⟩
  obtain ⟨cs, rfl, -⟩ | ⟨-, rfl, -⟩ | ⟨cs, rfl, rfl⟩ := append_cons_eq_append_cons split.symm
  · exact never ⟨within, last, cs, rfl, enclosed', finish⟩
  · rw [isHead_of_isEnd finish] at head
    cases head
  · obtain ⟨within', last', rest', rfl, enclosed₁, finish'⟩ := enclosed'.hasEnd_of_isHead head
    refine enclosed.not_hasEnd ⟨within', last', rest' ++ last :: rest, ?_, enclosed₁, finish'⟩
    rw [List.append_assoc, List.cons_append]

/-- The open blocks are those that have begun and not ended. -/
lemma mem_line_iff (h : OpenAfter rows stack) (n : Nat) :
    n ∈ stack.map OpenBlock.line ↔ Unended rows n := by
  induction h with
  | closed enclosed =>
    constructor
    · exact fun none => absurd none List.not_mem_nil
    · rintro ⟨before, raw, after, rfl, -, head, never⟩
      exact absurd (enclosed.hasEnd_of_isHead head) never
  | @opened before raw inside block stack outer line suits enclosed ih =>
    rw [List.map_cons, List.mem_cons, ih]
    constructor
    · rintro (rfl | ⟨before', raw', after, rfl, rfl, head, never⟩)
      · exact ⟨before, raw, inside, rfl, line, suits.isHead, enclosed.not_hasEnd⟩
      · exact ⟨before', raw', after ++ raw :: inside, by simp, rfl, head,
          not_hasEnd_append never suits.isHead enclosed⟩
    · rintro ⟨before', raw', after, split, rfl, head, never⟩
      obtain ⟨cs, rfl, rfl⟩ | ⟨rfl, -, -⟩ | ⟨cs, rfl, rfl⟩ :=
        append_cons_eq_append_cons split.symm
      · refine .inr ⟨before', raw', cs, rfl, rfl, head, ?_⟩
        rintro ⟨within, last, rest, rfl, enclosed', finish⟩
        exact never ⟨within, last, rest ++ raw :: inside, by simp, enclosed', finish⟩
      · exact .inl line.symm
      · exact absurd (enclosed.hasEnd_of_isHead head) never

end OpenAfter

namespace Layout

variable {l : Layout}

/-- Lines that end blocks, at most as many as are open. -/
lemma addLines_ends {added : List (List Char)} (k : Nat) (finish : ∀ raw ∈ added, isEnd raw = true)
    (enough : added.length ≤ l.stack.length) :
    l.addLines k added = .ok (finishMany added.length l) ∧
      (finishMany added.length l).stack.length + added.length = l.stack.length := by
  induction added generalizing l k with
  | nil => exact ⟨rfl, rfl⟩
  | cons raw added ih =>
    obtain ⟨first, rest⟩ := List.forall_mem_cons.mp finish
    cases stack : l.stack with
    | nil =>
      rw [stack] at enough
      cases enough
    | cons top below =>
      -- the innermost block is closed, and one less is open for the lines after this one
      have finished : l.finish = .ok ({ l with stack := below }.close top) := by
        rw [Layout.finish, stack]
      have height : ({ l with stack := below }.close top).stack.length = below.length :=
        length_stack_close _ top
      rw [stack, List.length_cons, List.length_cons] at enough
      obtain ⟨read, left⟩ := ih (l := { l with stack := below }.close top) (k + 1) rest (by omega)
      have text : trim raw = Sentence.finish.text := of_decide_eq_true first
      have line : l.addText k raw = .ok ({ l with stack := below }.close top) := by
        rw [addText_of_trim text, addRow, show l.add k Sentence.finish.meaning = _ from finished]
      constructor
      · rw [addLines, line, List.length_cons, finishMany, finished]
        exact read
      · rw [List.length_cons, List.length_cons, finishMany, finished]
        dsimp only
        omega

/-- When no block is open, none can be ended. -/
lemma addText_unmatched {raw : List Char} (finish : isEnd raw = true) (closed : l.stack = [])
    (k : Nat) : l.addText k raw = .error ⟨k, .unmatchedBlock⟩ := by
  have text : trim raw = Sentence.finish.text := of_decide_eq_true finish
  have unmatched : l.finish = .error .unmatchedBlock := by
    rw [Layout.finish, closed]
  rw [addText_of_trim text, addRow, show l.add k Sentence.finish.meaning = _ from unmatched]

/-- As many lines that end blocks as are open give the script that the end of the text gives. -/
lemma addLines_all_ends {added : List (List Char)} (k : Nat)
    (finish : ∀ raw ∈ added, isEnd raw = true) (all : added.length = l.stack.length) :
    ∃ done : Layout, l.addLines k added = .ok done ∧ done.stack = [] ∧
      done.toScript = ⟨l.toScript.block, l.toScript.functions, []⟩ := by
  obtain ⟨read, left⟩ := addLines_ends k finish (Nat.le_of_eq all)
  rw [all] at read left
  have closed : (finishMany l.stack.length l).stack = [] :=
    List.eq_nil_of_length_eq_zero (by omega)
  refine ⟨_, read, closed, ?_⟩
  rw [toScript, warnings, closed]
  rfl

/-- One more of them is at fault. -/
lemma addLines_too_many_ends {added : List (List Char)} (k : Nat)
    (finish : ∀ raw ∈ added, isEnd raw = true) (all : added.length = l.stack.length + 1) :
    l.addLines k added = .error ⟨k + l.stack.length, .unmatchedBlock⟩ := by
  obtain rfl | ⟨init, last, rfl⟩ := List.eq_nil_or_concat added
  · cases all
  rw [List.concat_eq_append] at finish all ⊢
  obtain ⟨earlier, final⟩ := List.forall_mem_append.mp finish
  rw [List.length_append, List.length_singleton] at all
  have enough : init.length = l.stack.length := by omega
  obtain ⟨done, read, closed, -⟩ := addLines_all_ends k earlier enough
  have fault := addText_unmatched (final last List.mem_cons_self) closed (k + init.length)
  rw [addLines_append, read]
  change done.addLines (k + init.length) [last] = _
  rw [addLines, fault, enough]
  rfl

end Layout

/-- The end of a script does what the missing ends of its blocks would do. With as many lines more
that end a block as there are warnings, the script is the same but for the warnings, and with one
more than that the last one is at fault. The warnings are about the lines on which the open blocks
begin, the later ones first. -/
theorem parse_closes_blocks (text : List Char) (script : Script)
    (parsed : Script.parse text = .ok script) :
    (∀ text' added, Script.rows text' = Script.rows text ++ added →
      (∀ raw ∈ added, trim raw = "end".toList) →
      (added.length = script.warnings.length →
        Script.parse text' = .ok ⟨script.block, script.functions, []⟩) ∧
      (added.length = script.warnings.length + 1 →
        Script.parse text' = .error ⟨(Script.rows text').length, .unmatchedBlock⟩)) ∧
    (script.warnings.map Diagnostic.line).Pairwise (· > ·) ∧
    (∀ d ∈ script.warnings, d.cause = .unclosedBlock) ∧
    ∀ n, n ∈ script.warnings.map Diagnostic.line ↔ Unended (Script.rows text) n := by
  obtain ⟨l, read, rfl, account⟩ := Script.exists_layout parsed
  have warned : l.toScript.warnings.length = l.stack.length := List.length_map _
  have lines : l.toScript.warnings.map Diagnostic.line = l.stack.map OpenBlock.line :=
    List.map_map
  rw [warned, lines]
  refine ⟨?_, account.pairwise_line, ?_, account.mem_line_iff⟩
  · intro text' added rows finish
    have finish' : ∀ raw ∈ added, isEnd raw = true := fun raw mem => decide_eq_true (finish raw mem)
    -- the added lines are read where the text has ended, with its open blocks
    have whole : Layout.empty.addLines 1 (Script.rows text') =
        l.addLines (1 + (Script.rows text).length) added := by
      rw [rows, Layout.addLines_append, read]
      rfl
    rw [Script.parse_eq, whole]
    constructor
    · intro all
      obtain ⟨done, ended, -, same⟩ := Layout.addLines_all_ends _ finish' all
      rw [ended, ← same]
      rfl
    · intro all
      have count : 1 + (Script.rows text).length + l.stack.length = (Script.rows text').length := by
        rw [rows, List.length_append, all]
        omega
      rw [Layout.addLines_too_many_ends _ finish' all, count]
      rfl
  · intro d mem
    obtain ⟨b, -, rfl⟩ := List.mem_map.mp mem
    rfl

/-- A function, in it the other block of a branch, and in that one a loop. -/
def unclosedText : List Char := "function f()\nif (a)\nelse\nwhile (b)\n  x = 1\n".toList

/-- What has been read so far is in place: the loop within the other block of the branch within the
function. -/
theorem parse_closes_blocks_unclosed :
    ∃ script, Script.parse unclosedText = .ok script ∧
      script.sketch =
        { functions := [("f", [], [⟨0, 2, "(a)"⟩, ⟨0, 0, "else"⟩, ⟨1, 4, "(b)"⟩, ⟨2, 5, "x"⟩])]
          entries := []
          warned := [4, 2, 1] } ∧
      Unended (Script.rows unclosedText) 2 ∧
      Script.parse (unclosedText ++ "end\n end\nend".toList) =
        .ok ⟨script.block, script.functions, []⟩ ∧
      Script.parse (unclosedText ++ "end\n end\nend\nend\n".toList) =
        .error ⟨9, .unmatchedBlock⟩ := by
  have found : (Script.parse unclosedText).toOption.map Script.sketch =
      some
        { functions := [("f", [], [⟨0, 2, "(a)"⟩, ⟨0, 0, "else"⟩, ⟨1, 4, "(b)"⟩, ⟨2, 5, "x"⟩])]
          entries := []
          warned := [4, 2, 1] } := by
    decide +kernel
  cases parsed : Script.parse unclosedText with
  | error e =>
    rw [parsed] at found
    cases found
  | ok script =>
    rw [parsed] at found
    have sketched := Option.some.inj found
    have lines : script.warnings.map Diagnostic.line = [4, 2, 1] := congrArg Sketch.warned sketched
    have count : script.warnings.length = 3 := by
      rw [← List.length_map Diagnostic.line, lines]
      rfl
    obtain ⟨closing, -, -, opened⟩ := parse_closes_blocks unclosedText script parsed
    obtain ⟨same, -⟩ := closing (unclosedText ++ "end\n end\nend".toList)
      ["end".toList, " end".toList, "end".toList] (by decide +kernel) (by decide +kernel)
    obtain ⟨-, fault⟩ := closing (unclosedText ++ "end\n end\nend\nend\n".toList)
      ["end".toList, " end".toList, "end".toList, "end".toList] (by decide +kernel)
      (by decide +kernel)
    have last : (Script.rows (unclosedText ++ "end\n end\nend\nend\n".toList)).length = 9 := by
      decide +kernel
    rw [last] at fault
    have unended : Unended (Script.rows unclosedText) 2 := by
      refine (opened 2).mp ?_
      rw [lines]
      decide
    exact ⟨script, rfl, sketched, unended, same count.symm, fault (by rw [count]; rfl)⟩

end Linework
