import Linework.Proofs.Rendering
import Linework.Proofs.Correspondence

/-!
# Spacing

Blank lines, comments and the blanks around a line have no meaning. A text with other spacing gives
the same script on other lines, or the same error; and a script on other lines runs as before.
-/

namespace Linework

open Text

/-- Lines of two texts that say the same: silent lines come and go, and the blanks around the others
may change. A line with number `k` that stays gets the number `φ k`. -/
inductive Respaced (φ : Nat → Nat) : Nat → Nat → List (List Char) → List (List Char) → Prop where
  | done {k k' : Nat} : Respaced φ k k' [] []
  | insert {k k' : Nat} {raw' : List Char} {raws raws' : List (List Char)} (nothing : Silent raw')
      (rest : Respaced φ k (k' + 1) raws raws') : Respaced φ k k' raws (raw' :: raws')
  | remove {k k' : Nat} {raw : List Char} {raws raws' : List (List Char)} (nothing : Silent raw)
      (rest : Respaced φ (k + 1) k' raws raws') : Respaced φ k k' (raw :: raws) raws'
  | line {k k' : Nat} {left right left' right' cs : List Char} {raws raws' : List (List Char)}
      (blank : Blank left ∧ Blank right) (blank' : Blank left' ∧ Blank right') (number : φ k = k')
      (rest : Respaced φ (k + 1) (k' + 1) raws raws') :
      Respaced φ k k' ((left ++ cs ++ right) :: raws) ((left' ++ cs ++ right') :: raws')

section

variable (φ : Nat → Nat)

/-- A block on other lines, statement by statement. -/
lemma relabelBlock_eq_map (b : Block) : relabelBlock φ b = b.map (Statement.relabel φ) := by
  induction b with
  | nil => rfl
  | cons s rest ih => rw [relabelBlock, ih, List.map_cons]

/-- A script on other lines. -/
def Script.relabel (script : Script) : Script where
  block := relabelBlock φ script.block
  functions := script.functions.map (Definition.relabel φ)
  warnings := script.warnings.map (Diagnostic.relabel φ)

/-- A script on other lines shows the same on those lines. -/
lemma run_relabel (m : Machine) (limits : Limits) (fuel : Nat) (script : Script) :
    (m.run limits fuel builtinRoot (script.relabel φ)).map shown =
      (m.run limits fuel builtinRoot script).map (shownAt φ) := by
  refine run_shows φ m limits fuel rfl (fun name => ?_) rfl
  refine Function.rel_find? Function.Rewritten.name ?_ name
  refine List.rel_append (List.forall₂_same.mpr fun f => .builtin) ?_
  rw [Script.relabel, List.map_map, List.forall₂_map_left_iff, List.forall₂_map_right_iff]
  exact List.forall₂_same.mpr fun d _ => Function.rewritten_relabel φ d

/-- The error of a text on other lines. -/
def LayoutError.relabel (e : LayoutError) : LayoutError := { e with line := φ e.line }

/-- What opens a block, on other lines. -/
def OpenBlock.Head.relabel : OpenBlock.Head → OpenBlock.Head
  | .otherwise condition yes => .otherwise condition (relabelBlock φ yes)
  | head => head

/-- A block that is open, on other lines. -/
def OpenBlock.relabel (b : OpenBlock) : OpenBlock where
  line := φ b.line
  head := b.head.relabel φ
  body := b.body.map (Statement.relabel φ)

namespace Layout

/-- What was read so far, on other lines. -/
def relabel (l : Layout) : Layout where
  root := l.root.map (Statement.relabel φ)
  stack := l.stack.map (OpenBlock.relabel φ)
  functions := l.functions.map (Definition.relabel φ)

/-- One more statement. -/
lemma relabel_push (l : Layout) (s : Statement) :
    (l.push s).relabel φ = (l.relabel φ).push (s.relabel φ) := by
  obtain ⟨root, stack, functions⟩ := l
  cases stack <;> rfl

/-- The statements of a block are turned around when it ends. -/
lemma reverse_relabel (statements : List Statement) :
    (statements.map (Statement.relabel φ)).reverse = relabelBlock φ statements.reverse := by
  rw [relabelBlock_eq_map, List.map_reverse]

/-- A block that is closed. -/
lemma relabel_close (l : Layout) (b : OpenBlock) :
    (l.close b).relabel φ = (l.relabel φ).close (b.relabel φ) := by
  obtain ⟨line, head, statements⟩ := b
  cases head with
  | function name params =>
    simp only [close, OpenBlock.relabel, OpenBlock.Head.relabel, reverse_relabel]
    rfl
  | branch | otherwise | loop =>
    simp only [close, OpenBlock.relabel, OpenBlock.Head.relabel, reverse_relabel]
    exact relabel_push φ l _

/-- The end of the innermost block, or the same reason why there is none. -/
lemma finish_relabel (l : Layout) : (l.relabel φ).finish = l.finish.map (relabel φ) := by
  obtain ⟨root, stack, functions⟩ := l
  cases stack with
  | nil => rfl
  | cons top rest => exact congrArg _ (relabel_close φ ⟨root, rest, functions⟩ top).symm

/-- The turn to the other case of a branch, or the same reason why there is none. -/
lemma turn_relabel (l : Layout) : (l.relabel φ).turn = l.turn.map (relabel φ) := by
  obtain ⟨root, stack, functions⟩ := l
  rcases stack with _ | ⟨⟨line, head, statements⟩, rest⟩
  · rfl
  · cases head with
    | branch condition =>
      simp only [relabel, turn, List.map_cons, OpenBlock.relabel, OpenBlock.Head.relabel,
        reverse_relabel]
      rfl
    | function | otherwise | loop => rfl

/-- What a line says does not depend on its number. -/
lemma add_relabel (l : Layout) (k : Nat) (said : Line) :
    (l.relabel φ).add (φ k) said = (l.add k said).map (relabel φ) := by
  cases said with
  | finish => exact finish_relabel φ l
  | otherwise => exact turn_relabel φ l
  | function | branch | loop => rfl
  | plain instruction => exact congrArg _ (relabel_push φ l (.plain k instruction)).symm

/-- What was read, or why not, on other lines. -/
def relabelled (x : Except LayoutError Layout) : Except LayoutError Layout :=
  (x.map (relabel φ)).mapError (LayoutError.relabel φ)

/-- Only what is left of a line without the blanks around it matters. -/
lemma addText_relabel (l : Layout) (k : Nat) {text text' : List Char}
    (same : trim text' = trim text) :
    (l.relabel φ).addText (φ k) text' = relabelled φ (l.addText k text) := by
  rw [addText, addText, same]
  split
  · rfl
  · cases Line.read (trim text) with
    | error cause => rfl
    | ok said =>
      simp only [add_relabel]
      cases l.add k said <;> rfl

/-- Reading lines with other spacing. -/
lemma addLines_respaced {k k' : Nat} {raws raws' : List (List Char)}
    (respaced : Respaced φ k k' raws raws') (l : Layout) :
    (l.relabel φ).addLines k' raws' = relabelled φ (l.addLines k raws) := by
  induction respaced generalizing l with
  | done => rfl
  | insert nothing _ ih =>
    -- the layout stays, and the numbers of the lines to come go on by one
    rw [addLines, addText_silent nothing]
    exact ih l
  | remove nothing _ ih =>
    rw [addLines, addText_silent nothing]
    exact ih l
  | @line k k' left right left' right' cs raws raws' blank blank' number _ ih =>
    have same : trim (left' ++ cs ++ right') = trim (left ++ cs ++ right) :=
      (trim_between blank'.1 blank'.2 cs).trans (trim_between blank.1 blank.2 cs).symm
    rw [addLines, addLines, ← number, addText_relabel φ l k same]
    cases l.addText k (left ++ cs ++ right) with
    | error e => rfl
    | ok l' => exact number ▸ ih l'

/-- Blocks that are closed at the end of the text. -/
lemma relabel_finishMany (n : Nat) (l : Layout) :
    (l.finishMany n).relabel φ = (l.relabel φ).finishMany n := by
  induction n generalizing l with
  | zero => rfl
  | succ n ih =>
    rw [finishMany, finishMany, finish_relabel]
    cases l.finish with
    | error cause => rfl
    | ok l' => exact ih l'

/-- The script that was read. -/
lemma toScript_relabel (l : Layout) : (l.relabel φ).toScript = l.toScript.relabel φ := by
  have length : (l.relabel φ).stack.length = l.stack.length := List.length_map _
  simp only [toScript, length, ← relabel_finishMany, Script.relabel]
  congr 1
  · exact reverse_relabel φ _
  · exact List.map_reverse.symm
  · rw [warnings, warnings, List.map_map]
    exact List.map_map

end Layout

end

/-- A text with other spacing is read as the same script on other lines, or fails for the same
reason on the line that corresponds; and the two scripts run alike: with the same output, steps and
random numbers, and the same result and diagnostics on the lines that correspond. -/
theorem spacing_irrelevant {φ : Nat → Nat} {text text' : List Char}
    (respaced : Respaced φ 1 1 (text.splitOn '\n') (text'.splitOn '\n')) :
    Script.parse text' =
      ((Script.parse text).map (Script.relabel φ)).mapError (LayoutError.relabel φ) ∧
    ∀ script script', Script.parse text = .ok script → Script.parse text' = .ok script' →
      ∀ (m : Machine) (limits : Limits) (fuel : Nat),
        (m.run limits fuel builtinRoot script').map shown =
          (m.run limits fuel builtinRoot script).map (shownAt φ) := by
  have parsed : Script.parse text' =
      ((Script.parse text).map (Script.relabel φ)).mapError (LayoutError.relabel φ) := by
    have lines : (Layout.relabel φ .empty).addLines 1 (Script.lines text') =
        Layout.relabelled φ (Layout.empty.addLines 1 (Script.lines text)) := by
      rw [Script.lines, Script.lines, pieces_eq_splitOn, pieces_eq_splitOn]
      exact Layout.addLines_respaced φ respaced .empty
    have start : Layout.relabel φ .empty = .empty := rfl
    rw [Script.parse, Script.parse, ← start, lines, start]
    cases Layout.empty.addLines 1 (Script.lines text) with
    | error e => rfl
    | ok l => exact congrArg Except.ok (Layout.toScript_relabel φ l)
  refine ⟨parsed, fun script script' read read' m limits fuel => ?_⟩
  rw [read, read'] at parsed
  cases parsed
  exact run_relabel φ m limits fuel script

/-- A branch that is not closed, with a call of a function that does not exist and a `break`. -/
def crowded : List Char := "if (true)\nb()\nbreak".toList

/-- The same with a line before each. -/
def airy : List Char := "\n  if (true)\n// calls b\n\tb()\n  // leaves\nbreak ".toList

/-- The crowded and the airy script end alike, on lines that correspond. -/
theorem spacing_irrelevant_airy :
    Respaced (2 * ·) 1 1 (crowded.splitOn '\n') (airy.splitOn '\n') ∧
    ∃ script script', Script.parse crowded = .ok script ∧ Script.parse airy = .ok script' ∧
      (Engine.quiet.machine.run Limits.default 1 builtinRoot script').map
        (fun p => (p.1.map fun _ => (), p.2.diagnostics.toList)) =
          some (.error (.strayLoopWord .leave 6),
            [⟨2, .unclosedBlock⟩, ⟨4, .undeclaredFunction "b"⟩]) := by
  have lines : crowded.splitOn '\n' = [[] ++ "if (true)".toList ++ [], [] ++ "b()".toList ++ [],
      [] ++ "break".toList ++ []] := by decide +kernel
  have lines' : airy.splitOn '\n' = [[], "  ".toList ++ "if (true)".toList ++ [],
      [] ++ '/' :: '/' :: " calls b".toList, "\t".toList ++ "b()".toList ++ [],
      "  ".toList ++ '/' :: '/' :: " leaves".toList, [] ++ "break".toList ++ " ".toList] := by
    decide +kernel
  have respaced : Respaced (2 * ·) 1 1 (crowded.splitOn '\n') (airy.splitOn '\n') := by
    have none : Blank [] := List.forall_mem_nil _
    have two : Blank "  ".toList := by decide
    rw [lines, lines']
    refine .insert (.inl none) (.line ⟨none, none⟩ ⟨two, none⟩ rfl ?_)
    refine .insert (.inr ⟨_, _, none, rfl⟩) (.line ⟨none, none⟩ ⟨by decide, none⟩ rfl ?_)
    exact .insert (.inr ⟨_, _, two, rfl⟩) (.line ⟨none, none⟩ ⟨none, by decide⟩ rfl .done)
  have found : (Script.parse crowded).toOption.bind (fun script =>
      (Engine.quiet.machine.run Limits.default 1 builtinRoot script).map fun p =>
        ((shownAt (2 * ·) p).1.map fun _ => (), (shownAt (2 * ·) p).2.2.1.toList)) =
      some (.error (.strayLoopWord .leave 6),
        [⟨2, .unclosedBlock⟩, ⟨4, .undeclaredFunction "b"⟩]) := by decide +kernel
  obtain ⟨parsed, same⟩ := spacing_irrelevant respaced
  cases read : Script.parse crowded with
  | error e =>
    rw [read] at found
    cases found
  | ok script =>
    rw [read] at found parsed
    refine ⟨respaced, script, _, rfl, parsed, ?_⟩
    have told := congrArg (Option.map fun q => (q.1.map fun _ => (), q.2.2.1.toList))
      (same script _ read parsed Engine.quiet.machine Limits.default 1)
    rw [Option.map_map, Option.map_map] at told
    exact told.trans found

end Linework
