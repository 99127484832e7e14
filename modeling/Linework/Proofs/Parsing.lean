import Linework.Proofs.Grammar

/-!
# Reading expressions by the grammar

`Expr.parse` reads exactly the derivations of the grammar whose modes exist and whose demand stays
within the nesting limit. Each reader is compared with its symbol in two directions: `Sound` says
that what it reads has a derivation, `Complete` that it reads every derivation, up to a length.
-/

namespace Linework.Grammar
open Linework.Expr (Cursor Reader nestingLimit levels)

section Cursor

variable {c d : Cursor} {kinds : List TokenKind} {t : Token} {ts : List Token}

/-- Two steps succeed if each one does. -/
lemma bind_eq_ok {ε α β : Type} {x : Except ε α} {f : α → Except ε β} {b : β} :
    (x >>= f) = .ok b ↔ ∃ a, x = .ok a ∧ f a = .ok b := by
  cases x with
  | error e => exact ⟨nofun, nofun⟩
  | ok a => exact ⟨fun h => ⟨a, rfl, h⟩, fun ⟨_, e, h⟩ => by cases e; exact h⟩

/-- Going deeper succeeds where there is room. -/
lemma deepen_eq_ok :
    c.deepen = .ok d ↔ c.depth < nestingLimit ∧ d = ⟨c.rest, c.depth + 1⟩ := by
  unfold Cursor.deepen Cursor.fail
  split <;> grind

/-- What is expected has been read. -/
lemma expect_ok {kind cause} (h : c.expect kind cause = .ok (t, d)) :
    c.rest = t :: d.rest ∧ d.depth = c.depth ∧ t.kind ∈ [kind] := by
  unfold Cursor.expect at h
  split at h
  · rename_i accepted
    cases h
    obtain ⟨tokens, depth, -, kind⟩ := Cursor.accept?_eq_some.mp accepted
    exact ⟨tokens, depth, kind⟩
  · cases h

/-- A token of the kinds is accepted. -/
lemma accept?_of_mem (t : TokenOf kinds) (ts : List Token) (depth : Nat)
    (inner : .endOfText ∉ kinds) :
    Cursor.accept? ⟨t.1 :: ts, depth⟩ kinds = some (t.1, ⟨ts, depth⟩) := by
  refine Cursor.accept?_eq_some.mpr ⟨rfl, rfl, ?_, t.2⟩
  intro e
  exact inner (e ▸ t.2)

/-- What stops the kinds is not accepted. -/
lemma accept?_of_stops (depth : Nat) (h : Stops kinds ts) :
    Cursor.accept? ⟨ts, depth⟩ kinds = none := by
  cases ts with
  | nil => rfl
  | cons t ts =>
    have other : t.kind ∉ kinds := h t rfl
    simp only [Cursor.accept?, other, and_false, if_false]

end Cursor

/-- A derivation spans the tokens between two cursors, and there is room for its nesting. -/
structure Spans {s : Symbol} (c : Cursor) (d : Derivation s) (c' : Cursor) : Prop where
  tokens : c.rest = d.yield ++ c'.rest
  depth : c'.depth = c.depth
  room : c.depth + d.demand ≤ nestingLimit
  known : d.Known

/-- What a reader reads has a derivation. -/
def Sound (s : Symbol) (read : Reader s.Meaning) : Prop :=
  ∀ c x c', c.depth ≤ nestingLimit → read c = .ok (x, c') →
    ∃ d : Derivation s, d.tree = x ∧ Spans c d c'

section Soundness

variable {op : TokenKind} {ops : List TokenKind} {operand inner : Reader Expr}

/-- Further operations read have a derivation. The cursor is left as deep as the last operand was
read. -/
lemma sound_chain (sound : Sound (.binary ops) operand) (bound : List Token) :
    ∀ left c x c', c.depth ≤ nestingLimit → Expr.chain op operand bound left c = .ok (x, c') →
      ∃ rest : Derivation (.operations op ops), operate left rest.tree = x ∧
        c.rest = rest.yield ++ c'.rest ∧ c.depth + rest.demand ≤ nestingLimit ∧ rest.Known := by
  induction bound with
  | nil =>
    intro left c x c' room h
    cases h
    exact ⟨.noOperation, rfl, rfl, room, trivial⟩
  | cons _ bound ih =>
    intro left c x c' room h
    simp only [Expr.chain] at h
    split at h
    · cases h
      exact ⟨.noOperation, rfl, rfl, room, trivial⟩
    · rename_i t c1 accepted
      obtain ⟨c2, deeper, h⟩ := bind_eq_ok.mp h
      obtain ⟨⟨right, c3⟩, read, h⟩ := bind_eq_ok.mp h
      obtain ⟨tokens1, depth1, -, kind⟩ := Cursor.accept?_eq_some.mp accepted
      obtain ⟨below, rfl⟩ := deepen_eq_ok.mp deeper
      obtain ⟨e, rfl, span⟩ := sound ⟨c1.rest, c1.depth + 1⟩ _ _ below read
      have tokens3 : c1.rest = e.yield ++ c3.rest := span.tokens
      have depth3 : c3.depth = c1.depth + 1 := span.depth
      have room3 : c1.depth + 1 + e.demand ≤ nestingLimit := span.room
      -- the next operand is read from where this one has left the depth, one deeper
      obtain ⟨rest, rfl, tokens, room', known⟩ := ih _ c3 x c' (by omega) h
      refine ⟨.operation ⟨t, kind⟩ e rest, rfl, ?_, ?_, span.known, known⟩
      · rw [tokens1, tokens3, tokens]
        simp only [Derivation.yield, List.cons_append, List.append_assoc]
      · simp only [Derivation.demand]
        omega

/-- One level of operators. -/
lemma sound_level (sound : Sound (.binary ops) operand) :
    Sound (.binary (op :: ops)) (Expr.level op operand) := by
  intro c x c' room h
  obtain ⟨⟨left, c1⟩, read, h⟩ := bind_eq_ok.mp h
  obtain ⟨⟨y, c2⟩, further, h⟩ := bind_eq_ok.mp h
  cases h
  obtain ⟨first, rfl, span⟩ := sound c left c1 room read
  have depth1 : c1.depth = c.depth := span.depth
  obtain ⟨rest, rfl, tokens, room', known⟩ := sound_chain sound _ _ c1 _ c2 (by omega) further
  refine ⟨.level first rest, rfl, ?_, rfl, ?_, span.known, known⟩
  · rw [span.tokens, tokens]
    simp only [Derivation.yield, List.append_assoc]
  · have room1 := span.room
    simp only [Derivation.demand]
    omega

/-- All levels read have derivations, if the operands of the tightest one have. -/
lemma sound_ladder (sound : Sound .unary operand) (ops : List TokenKind) :
    Sound (.binary ops) (Expr.ladder ops operand) := by
  induction ops with
  | nil =>
    intro c x c' room h
    obtain ⟨e, rfl, span⟩ := sound c x c' room h
    exact ⟨.operand e, rfl, span.tokens, span.depth, span.room, span.known⟩
  | cons op ops ih => exact sound_level ih

/-- The conditions of a chain after the first one, by induction on the bound. -/
lemma sound_connectives (sound : Sound (.binary levels) operand) (bound : List Token) :
    Sound .conditions (Expr.connectives operand bound) := by
  induction bound with
  | nil =>
    intro c x c' room h
    cases h
    exact ⟨.noCondition, rfl, rfl, rfl, room, trivial⟩
  | cons _ bound ih =>
    intro c x c' room h
    simp only [Expr.connectives] at h
    split at h
    · cases h
      exact ⟨.noCondition, rfl, rfl, rfl, room, trivial⟩
    · rename_i t c1 accepted
      obtain ⟨⟨e, c2⟩, read, h⟩ := bind_eq_ok.mp h
      obtain ⟨⟨rest, c3⟩, further, h⟩ := bind_eq_ok.mp h
      cases h
      obtain ⟨tokens1, depth1, -, kind⟩ := Cursor.accept?_eq_some.mp accepted
      obtain ⟨e, rfl, span⟩ := sound c1 _ c2 (by omega) read
      have depth2 := span.depth
      obtain ⟨rest, rfl, span'⟩ := ih c2 _ _ (by omega) further
      have depth3 := span'.depth
      refine ⟨.condition ⟨t, kind⟩ e rest, rfl, ?_, depth3.trans (depth2.trans depth1), ?_,
        span.known, span'.known⟩
      · rw [tokens1, span.tokens, span'.tokens]
        simp only [Derivation.yield, List.cons_append, List.append_assoc]
      · have room2 := span.room
        have room3 := span'.room
        simp only [Derivation.demand]
        omega

/-- A chain of conditions. -/
lemma sound_logicChain (sound : Sound (.binary levels) operand) :
    Sound .logic (Expr.logicChain operand) := by
  intro c x c' room h
  obtain ⟨⟨first, c1⟩, read, h⟩ := bind_eq_ok.mp h
  obtain ⟨⟨rest, c2⟩, further, h⟩ := bind_eq_ok.mp h
  cases h
  obtain ⟨first, rfl, span⟩ := sound c _ c1 room read
  have depth1 := span.depth
  obtain ⟨rest, rfl, span'⟩ := sound_connectives sound _ c1 _ c' (by omega) further
  have depth2 := span'.depth
  refine ⟨.logic first rest, rfl, ?_, by omega, ?_, span.known, span'.known⟩
  · rw [span.tokens, span'.tokens]
    simp only [Derivation.yield, List.append_assoc]
  · have room1 := span.room
    have room2 := span'.room
    simp only [Derivation.demand]
    omega

/-- Signs and their operand, by induction on the bound. -/
lemma sound_signs (sound : Sound .primary operand) (bound : List Token) :
    Sound .unary (Expr.signs operand bound) := by
  induction bound with
  | nil =>
    intro c x c' room h
    obtain ⟨e, rfl, span⟩ := sound c x c' room h
    exact ⟨.unsigned e, rfl, span.tokens, span.depth, span.room, span.known⟩
  | cons _ bound ih =>
    intro c x c' room h
    simp only [Expr.signs] at h
    split at h
    · obtain ⟨e, rfl, span⟩ := sound c x c' room h
      exact ⟨.unsigned e, rfl, span.tokens, span.depth, span.room, span.known⟩
    · rename_i t c1 accepted
      obtain ⟨c2, deeper, h⟩ := bind_eq_ok.mp h
      obtain ⟨⟨right, c3⟩, read, h⟩ := bind_eq_ok.mp h
      cases h
      obtain ⟨tokens1, depth1, -, kind⟩ := Cursor.accept?_eq_some.mp accepted
      obtain ⟨below, rfl⟩ := deepen_eq_ok.mp deeper
      obtain ⟨e, rfl, span⟩ := ih ⟨c1.rest, c1.depth + 1⟩ _ c3 below read
      have tokens3 : c1.rest = e.yield ++ c3.rest := span.tokens
      have depth3 : c3.depth = c1.depth + 1 := span.depth
      have room3 : c1.depth + 1 + e.demand ≤ nestingLimit := span.room
      refine ⟨.sign ⟨t, kind⟩ e, rfl, ?_, ?_, ?_, span.known⟩
      · rw [tokens1, tokens3]
        rfl
      · simp only [Cursor.surface]
        omega
      · simp only [Derivation.demand]
        omega

/-- The arguments of a call, by induction on the bound. -/
lemma sound_arguments (sound : Sound .logic inner) (bound : List Token) :
    ∀ c es c', c.depth ≤ nestingLimit → Expr.arguments inner bound c = .ok (es, c') →
      ∃ (first : Derivation .logic) (rest : Derivation .arguments) (c1 : Cursor),
        first.tree :: rest.tree = es ∧ Spans c first c1 ∧ Spans c1 rest c' := by
  induction bound with
  | nil =>
    intro c es c' room h
    obtain ⟨⟨e, c1⟩, read, h⟩ := bind_eq_ok.mp h
    cases h
    obtain ⟨e, rfl, span⟩ := sound c _ _ room read
    have room1 := Nat.le_trans (Nat.le_of_eq span.depth) room
    exact ⟨e, .noArgument, _, rfl, span, rfl, rfl, room1, trivial⟩
  | cons _ bound ih =>
    intro c es c' room h
    obtain ⟨⟨e, c1⟩, read, h⟩ := bind_eq_ok.mp h
    obtain ⟨e, rfl, span⟩ := sound c _ _ room read
    have depth1 := span.depth
    dsimp only at h
    split at h
    · cases h
      have room1 := Nat.le_trans (Nat.le_of_eq depth1) room
      exact ⟨e, .noArgument, _, rfl, span, rfl, rfl, room1, trivial⟩
    · rename_i t c2 accepted
      obtain ⟨⟨rest, c3⟩, further, h⟩ := bind_eq_ok.mp h
      cases h
      obtain ⟨tokens2, depth2, -, kind⟩ := Cursor.accept?_eq_some.mp accepted
      obtain ⟨first, rest, c4, rfl, span1, span2⟩ := ih c2 _ _ (by omega) further
      have depth3 := span1.depth
      have depth4 := span2.depth
      refine ⟨e, .argument ⟨t, kind⟩ first rest, c1, rfl, span, ?_,
        depth4.trans (depth3.trans depth2), ?_, span1.known, span2.known⟩
      · rw [tokens2, span1.tokens, span2.tokens]
        simp only [Derivation.yield, List.cons_append, List.append_assoc]
      · have room3 := span1.room
        have room4 := span2.room
        simp only [Derivation.demand]
        omega

/-- The mode of a range read has a derivation, and it exists. -/
lemma sound_rangeMode : Sound .mode Expr.rangeMode := by
  intro c mode c' room h
  simp only [Expr.rangeMode] at h
  split at h
  · cases h
    exact ⟨.noMode, rfl, rfl, rfl, room, trivial⟩
  · rename_i t c1 accepted
    obtain ⟨⟨word, c2⟩, expected, h⟩ := bind_eq_ok.mp h
    obtain ⟨tokens1, depth1, -, kind1⟩ := Cursor.accept?_eq_some.mp accepted
    obtain ⟨tokens2, depth2, kind2⟩ := expect_ok (c := c1) expected
    have tokens : c.rest = [t, word] ++ c2.rest := by rw [tokens1, tokens2]; rfl
    dsimp only at h
    split at h
    · rename_i integer
      cases h
      refine ⟨.flag ⟨t, kind1⟩ ⟨word, kind2⟩, ?_, tokens, by omega, room, .inl integer⟩
      simp only [Derivation.tree, integer, if_true]
    · rename_i integer
      split at h
      · rename_i real
        cases h
        refine ⟨.flag ⟨t, kind1⟩ ⟨word, kind2⟩, ?_, tokens, by omega, room, .inr real⟩
        simp only [Derivation.tree, integer, if_false]
      · cases h

/-- A call after its parenthesis. -/
lemma sound_callTail (sound : Sound .logic inner) (callee : TokenOf [.identifier])
    (l : TokenOf [.leftParen]) :
    ∀ c c1 x c', c.rest = callee.1 :: l.1 :: c1.rest → c1.depth = c.depth →
      Expr.callTail inner callee.1 c1 = .ok (x, c') →
      ∃ d : Derivation .primary, d.tree = x ∧ Spans c d c' := by
  intro c c1 x c' tokens depth h
  obtain ⟨c2, deeper, h⟩ := bind_eq_ok.mp h
  obtain ⟨below, rfl⟩ := deepen_eq_ok.mp deeper
  dsimp only at h
  split at h
  -- no arguments: the parenthesis is closed at once
  · obtain ⟨⟨es, c3⟩, none, h⟩ := bind_eq_ok.mp h
    obtain ⟨⟨r, c4⟩, expected, h⟩ := bind_eq_ok.mp h
    cases none
    cases h
    obtain ⟨tokens4, depth4, kind⟩ : c1.rest = r :: c4.rest ∧ c4.depth = c1.depth + 1 ∧ _ :=
      expect_ok expected
    refine ⟨.emptyCall callee l ⟨r, kind⟩, rfl, ?_, ?_, ?_, trivial⟩
    · rw [tokens]
      exact congrArg (callee.1 :: l.1 :: ·) tokens4
    · simp only [Cursor.surface]
      omega
    · simp only [Derivation.demand]
      omega
  · obtain ⟨⟨es, c3⟩, read, h⟩ := bind_eq_ok.mp h
    obtain ⟨⟨r, c4⟩, expected, h⟩ := bind_eq_ok.mp h
    cases h
    obtain ⟨tokens4, depth4, kind⟩ := expect_ok (c := c3) expected
    obtain ⟨first, rest, c5, rfl, span1, span2⟩ :=
      sound_arguments sound _ ⟨c1.rest, c1.depth + 1⟩ _ c3 below read
    have tokens1 : c1.rest = first.yield ++ c5.rest := span1.tokens
    have depth1 : c5.depth = c1.depth + 1 := span1.depth
    have room1 : c1.depth + 1 + first.demand ≤ nestingLimit := span1.room
    have depth2 := span2.depth
    refine ⟨.call callee l first rest ⟨r, kind⟩, rfl, ?_, ?_, ?_, span1.known, span2.known⟩
    · rw [tokens, tokens1, span2.tokens, tokens4]
      simp only [Derivation.yield, Cursor.surface, List.cons_append, List.append_assoc,
        List.nil_append]
    · simp only [Cursor.surface]
      omega
    · have room2 := span2.room
      simp only [Derivation.demand]
      omega

/-- A group after its parenthesis. -/
lemma sound_groupTail (sound : Sound .logic inner) (l : TokenOf [.leftParen]) :
    ∀ c c1 x c', c.rest = l.1 :: c1.rest → c1.depth = c.depth →
      Expr.groupTail inner c1 = .ok (x, c') →
      ∃ d : Derivation .primary, d.tree = x ∧ Spans c d c' := by
  intro c c1 x c' tokens depth h
  obtain ⟨c2, deeper, h⟩ := bind_eq_ok.mp h
  obtain ⟨⟨e, c3⟩, read, h⟩ := bind_eq_ok.mp h
  obtain ⟨⟨r, c4⟩, expected, h⟩ := bind_eq_ok.mp h
  cases h
  obtain ⟨below, rfl⟩ := deepen_eq_ok.mp deeper
  obtain ⟨tokens4, depth4, kind⟩ := expect_ok (c := c3) expected
  obtain ⟨e, rfl, span⟩ := sound ⟨c1.rest, c1.depth + 1⟩ _ c3 below read
  have tokens3 : c1.rest = e.yield ++ c3.rest := span.tokens
  have depth3 : c3.depth = c1.depth + 1 := span.depth
  have room3 : c1.depth + 1 + e.demand ≤ nestingLimit := span.room
  refine ⟨.group l e ⟨r, kind⟩, rfl, ?_, ?_, ?_, span.known⟩
  · rw [tokens, tokens3, tokens4]
    simp only [Derivation.yield, Cursor.surface, List.cons_append, List.append_assoc,
      List.nil_append]
  · simp only [Cursor.surface]
    omega
  · simp only [Derivation.demand]
    omega

/-- A range after its bracket. -/
lemma sound_rangeTail (sound : Sound .logic inner) (l : TokenOf [.leftBracket]) :
    ∀ c c1 x c', c.rest = l.1 :: c1.rest → c1.depth = c.depth →
      Expr.rangeTail inner c1 = .ok (x, c') →
      ∃ d : Derivation .primary, d.tree = x ∧ Spans c d c' := by
  intro c c1 x c' tokens depth h
  obtain ⟨c2, deeper, h⟩ := bind_eq_ok.mp h
  obtain ⟨⟨low, c3⟩, readLow, h⟩ := bind_eq_ok.mp h
  obtain ⟨⟨colon, c4⟩, expectedColon, h⟩ := bind_eq_ok.mp h
  obtain ⟨⟨high, c5⟩, readHigh, h⟩ := bind_eq_ok.mp h
  obtain ⟨⟨mode, c6⟩, readMode, h⟩ := bind_eq_ok.mp h
  obtain ⟨⟨r, c7⟩, expected, h⟩ := bind_eq_ok.mp h
  cases h
  obtain ⟨below, rfl⟩ := deepen_eq_ok.mp deeper
  obtain ⟨low, rfl, spanLow⟩ := sound ⟨c1.rest, c1.depth + 1⟩ _ c3 below readLow
  have tokens3 : c1.rest = low.yield ++ c3.rest := spanLow.tokens
  have depth3 : c3.depth = c1.depth + 1 := spanLow.depth
  have room3 : c1.depth + 1 + low.demand ≤ nestingLimit := spanLow.room
  obtain ⟨tokens4, depth4, kind4⟩ := expect_ok (c := c3) expectedColon
  obtain ⟨high, rfl, spanHigh⟩ := sound c4 _ c5 (by omega) readHigh
  have depth5 := spanHigh.depth
  obtain ⟨mode, rfl, spanMode⟩ := sound_rangeMode c5 _ c6 (by omega) readMode
  have depth6 := spanMode.depth
  obtain ⟨tokens7, depth7, kind7⟩ := expect_ok (c := c6) expected
  refine ⟨.range l low ⟨colon, kind4⟩ high mode ⟨r, kind7⟩, rfl, ?_, ?_, ?_, spanLow.known,
    spanHigh.known, spanMode.known⟩
  · rw [tokens, tokens3, tokens4, spanHigh.tokens, spanMode.tokens, tokens7]
    simp only [Derivation.yield, Cursor.surface, List.cons_append, List.append_assoc,
      List.nil_append]
  · simp only [Cursor.surface]
    omega
  · have room5 := spanHigh.room
    simp only [Derivation.demand]
    omega

/-- An operand. -/
lemma sound_primary (sound : Sound .logic inner) : Sound .primary (Expr.primary inner) := by
  intro c x c' room h
  simp only [Expr.primary] at h
  split at h
  · rename_i t c1 accepted
    cases h
    obtain ⟨tokens, depth, -, kind⟩ := Cursor.accept?_eq_some.mp accepted
    exact ⟨.literal ⟨t, kind⟩, rfl, tokens, depth, room, trivial⟩
  split at h
  · rename_i callee c1 accepted
    obtain ⟨tokens, depth, -, kind⟩ := Cursor.accept?_eq_some.mp accepted
    split at h
    · rename_i l c2 accepted2
      obtain ⟨tokens2, depth2, -, kind2⟩ := Cursor.accept?_eq_some.mp accepted2
      exact sound_callTail sound ⟨callee, kind⟩ ⟨l, kind2⟩ c c2 x c' (by rw [tokens, tokens2])
        (by omega) h
    · cases h
      exact ⟨.name ⟨callee, kind⟩, rfl, tokens, depth, room, trivial⟩
  split at h
  · rename_i l c1 accepted
    obtain ⟨tokens, depth, -, kind⟩ := Cursor.accept?_eq_some.mp accepted
    exact sound_groupTail sound ⟨l, kind⟩ c c1 x c' tokens depth h
  split at h
  · rename_i l c1 accepted
    obtain ⟨tokens, depth, -, kind⟩ := Cursor.accept?_eq_some.mp accepted
    exact sound_rangeTail sound ⟨l, kind⟩ c c1 x c' tokens depth h
  · simp only [Expr.noExpression, Cursor.fail] at h
    split at h <;> cases h

/-- An expression read has a derivation. -/
lemma sound_expression (n : Nat) : Sound .logic (Expr.expression n) := by
  induction n with
  | zero =>
    intro c x c' _ h
    simp only [Expr.expression, Expr.noExpression, Cursor.fail] at h
    split at h <;> cases h
  | succ n ih =>
    have unary : Sound .unary (Expr.unaryChain (Expr.primary (Expr.expression n))) :=
      fun c => sound_signs (sound_primary ih) c.rest c
    exact sound_logicChain (sound_ladder unary levels)

end Soundness

/-- A reader reads every derivation up to a length, if what follows does not continue it. -/
def Complete (s : Symbol) (read : Reader s.Meaning) (bound : Nat) : Prop :=
  ∀ (d : Derivation s) depth r, d.yield.length ≤ bound → depth + d.demand ≤ nestingLimit →
    d.Known → Stops s.continuations r → read ⟨d.yield ++ r, depth⟩ = .ok (d.tree, ⟨r, depth⟩)

section Completeness

variable {op : TokenKind} {ops : List TokenKind} {operand inner : Reader Expr} {n : Nat}

/-- There is room to go deeper. -/
lemma deepen_of_lt {ts : List Token} {depth : Nat} (h : depth < nestingLimit) :
    Cursor.deepen ⟨ts, depth⟩ = .ok ⟨ts, depth + 1⟩ :=
  deepen_eq_ok.mpr ⟨h, rfl⟩

/-- An expected token is read. -/
lemma expect_of_mem {kind cause} (t : TokenOf [kind]) (ts : List Token) (depth : Nat)
    (inner : kind ≠ .endOfText) :
    Cursor.expect ⟨t.1 :: ts, depth⟩ kind cause = .ok (t.1, ⟨ts, depth⟩) := by
  unfold Cursor.expect
  rw [accept?_of_mem t ts depth (by simpa using inner.symm)]

/-- What has succeeded goes on. -/
lemma ok_bind {ε α β : Type} (a : α) (f : α → Except ε β) : (Except.ok a >>= f) = f a := rfl

/-- No operator is the end. -/
lemma endOfText_not_mem (proper : op :: ops <:+ levels) : .endOfText ∉ [op] := by
  intro h
  cases List.mem_singleton.mp h
  exact absurd (proper.subset List.mem_cons_self) (by decide)

/-- The operators of one level, by recursion on the derivation. -/
lemma complete_chain (complete : Complete (.binary ops) operand n)
    (proper : op :: ops <:+ levels) :
    ∀ (rest : Derivation (.operations op ops)) (bound : List Token) left depth r,
      rest.yield.length ≤ bound.length → rest.yield.length ≤ n →
      depth + rest.demand ≤ nestingLimit → rest.Known →
      Stops (Symbol.continuations (.operations op ops)) r →
      ∃ depth', Expr.chain op operand bound left ⟨rest.yield ++ r, depth⟩ =
        .ok (operate left rest.tree, ⟨r, depth'⟩)
  | .noOperation, [], left, depth, r, _, _, _, _, _ => ⟨depth, rfl⟩
  | .noOperation, _ :: bound, left, depth, r, _, _, _, _, stop => by
    refine ⟨depth, ?_⟩
    have stop' : Stops [op] r := stop.mono (by simp [Symbol.continuations])
    simp only [Expr.chain, Derivation.yield, List.nil_append, accept?_of_stops depth stop']
    rfl
  | .operation t e rest, _ :: bound, left, depth, r, long, short, room, known, stop => by
    simp only [Derivation.yield, Derivation.demand, List.length_cons, List.length_append]
      at long short room
    have read := complete e (depth + 1) (rest.yield ++ r) (by omega) (by omega) known.1
      (stops_operations proper rest stop)
    obtain ⟨depth', further⟩ := complete_chain complete proper rest bound (.binary left t.1 e.tree)
      (depth + 1) r (by omega) (by omega) (by omega) known.2 stop
    refine ⟨depth', ?_⟩
    simp only [Expr.chain, Derivation.yield, List.cons_append, List.append_assoc,
      accept?_of_mem t _ depth (endOfText_not_mem proper), deepen_of_lt (show depth < _ by omega),
      ok_bind, read, further]
    rfl

/-- One level of operators. -/
lemma complete_level (complete : Complete (.binary ops) operand n)
    (proper : op :: ops <:+ levels) :
    Complete (.binary (op :: ops)) (Expr.level op operand) n := by
  intro d depth r short room known stop
  cases d with
  | level first rest =>
    simp only [Derivation.yield, Derivation.demand, List.length_append] at short room
    have read := complete first depth (rest.yield ++ r) (by omega) (by omega) known.1
      (stops_operations proper rest stop)
    obtain ⟨depth', further⟩ := complete_chain complete proper rest (rest.yield ++ r) first.tree
      depth r (by simp) (by omega) (by omega) known.2 stop
    simp only [Expr.level, Derivation.yield, List.append_assoc, read, ok_bind, further]
    rfl

/-- All levels are read, if the operands of the tightest one are. -/
lemma complete_ladder (complete : Complete .unary operand n) (ops : List TokenKind)
    (proper : ops <:+ levels) : Complete (.binary ops) (Expr.ladder ops operand) n := by
  induction ops with
  | nil =>
    intro d depth r short room known stop
    cases d with
    | operand e => exact complete e depth r short room known stop
  | cons op ops ih =>
    exact complete_level (ih ((List.suffix_cons op ops).trans proper)) proper

/-- The conditions of a chain after the first one, by recursion on the derivation. -/
lemma complete_connectives (complete : Complete (.binary levels) operand n) :
    ∀ (rest : Derivation .conditions) (bound : List Token) depth r,
      rest.yield.length ≤ bound.length → rest.yield.length ≤ n →
      depth + rest.demand ≤ nestingLimit → rest.Known →
      Stops (Symbol.continuations .conditions) r →
      Expr.connectives operand bound ⟨rest.yield ++ r, depth⟩ = .ok (rest.tree, ⟨r, depth⟩)
  | .noCondition, [], depth, r, _, _, _, _, _ => rfl
  | .noCondition, _ :: bound, depth, r, _, _, _, _, stop => by
    have stop' : Stops [.andAnd, .orOr] r := stop.mono (by decide)
    simp only [Expr.connectives, Derivation.yield, List.nil_append, accept?_of_stops depth stop']
    rfl
  | .condition t e rest, _ :: bound, depth, r, long, short, room, known, stop => by
    simp only [Derivation.yield, Derivation.demand, List.length_cons, List.length_append]
      at long short room
    have read := complete e depth (rest.yield ++ r) (by omega) (by omega) known.1
      (stops_conditions rest stop)
    have further := complete_connectives complete rest bound depth r (by omega) (by omega)
      (by omega) known.2 stop
    simp only [Expr.connectives, Derivation.yield, List.cons_append, List.append_assoc,
      accept?_of_mem t _ depth (by decide), ok_bind, read, further]
    rfl

/-- A chain of conditions. -/
lemma complete_logicChain (complete : Complete (.binary levels) operand n) :
    Complete .logic (Expr.logicChain operand) n := by
  intro d depth r short room known stop
  cases d with
  | logic first rest =>
    simp only [Derivation.yield, Derivation.demand, List.length_append] at short room
    have read := complete first depth (rest.yield ++ r) (by omega) (by omega) known.1
      (stops_conditions rest stop)
    have further := complete_connectives complete rest (rest.yield ++ r) depth r (by simp)
      (by omega) (by omega) known.2 stop
    simp only [Expr.logicChain, Derivation.yield, List.append_assoc, read, ok_bind, further]
    rfl

/-- No sign stands before a literal, a name, a call, a group or a range. -/
lemma stops_signs (d : Derivation .primary) (r : List Token) :
    Stops [.bang, .minus] (d.yield ++ r) := by
  cases d with
  | literal t | name t | emptyCall t | call t | group t | range t =>
    exact stops_cons t _ (by decide)

/-- Signs and their operand, by recursion on the derivation. -/
lemma complete_signs (complete : Complete .primary operand n) :
    ∀ (d : Derivation .unary) (bound : List Token) depth r,
      d.yield.length ≤ bound.length → d.yield.length ≤ n → depth + d.demand ≤ nestingLimit →
      d.Known → Stops (Symbol.continuations .unary) r →
      Expr.signs operand bound ⟨d.yield ++ r, depth⟩ = .ok (d.tree, ⟨r, depth⟩)
  | .unsigned e, [], depth, r, _, short, room, known, stop =>
    complete e depth r short room known stop
  | .unsigned e, _ :: bound, depth, r, _, short, room, known, stop => by
    have unsigned := accept?_of_stops depth (stops_signs e r)
    simp only [Expr.signs, Derivation.yield, unsigned]
    exact complete e depth r short room known stop
  | .sign t e, _ :: bound, depth, r, long, short, room, known, stop => by
    simp only [Derivation.yield, Derivation.demand, List.length_cons] at long short room
    have read := complete_signs complete e bound (depth + 1) r (by omega) (by omega) (by omega)
      known stop
    simp only [Expr.signs, Derivation.yield, List.cons_append,
      accept?_of_mem t _ depth (by decide), deepen_of_lt (show depth < _ by omega), ok_bind, read]
    rfl

/-- The arguments of a call, by recursion on the bound. -/
lemma complete_arguments (complete : Complete .logic inner n) :
    ∀ (bound : List Token) (first : Derivation .logic) (rest : Derivation .arguments) depth r,
      rest.yield.length ≤ bound.length → first.yield.length + rest.yield.length ≤ n →
      depth + max first.demand rest.demand ≤ nestingLimit → first.Known → rest.Known →
      Stops (Symbol.continuations .arguments) r →
      Expr.arguments inner bound ⟨first.yield ++ (rest.yield ++ r), depth⟩ =
        .ok (first.tree :: rest.tree, ⟨r, depth⟩) := by
  intro bound first rest
  induction bound generalizing first rest with
  | nil =>
    intro depth r long short room known knownRest stop
    have read := complete first depth (rest.yield ++ r) (by omega) (by omega) known
      (stops_arguments rest stop)
    cases rest with
    | noArgument =>
      simp only [Expr.arguments, read, ok_bind]
      rfl
    | argument => cases long
  | cons _ bound ih =>
    intro depth r long short room known knownRest stop
    have read := complete first depth (rest.yield ++ r) (by omega) (by omega) known
      (stops_arguments rest stop)
    cases rest with
    | noArgument =>
      have stop' : Stops [.comma] r := stop.mono (by decide)
      simp only [Expr.arguments, read, ok_bind]
      simp only [Derivation.yield, List.nil_append, accept?_of_stops depth stop']
      rfl
    | argument comma e rest =>
      simp only [Derivation.yield, Derivation.demand, List.length_cons, List.length_append]
        at long short room
      have further :=
        ih e rest depth r (by omega) (by omega) (by omega) knownRest.1 knownRest.2 stop
      simp only [Expr.arguments, read, ok_bind]
      simp only [Derivation.yield, List.cons_append, List.append_assoc,
        accept?_of_mem comma _ depth (by decide), ok_bind, further]
      rfl

/-- The mode of a range is read, if it exists. -/
lemma complete_rangeMode : Complete .mode Expr.rangeMode n := by
  intro d depth r _ _ known stop
  cases d with
  | noMode =>
    have none := accept?_of_stops depth (show Stops [.colon] r from stop)
    simp only [Expr.rangeMode, Derivation.yield, List.nil_append, none]
    rfl
  | flag colon word =>
    simp only [Expr.rangeMode, Derivation.yield, List.cons_append, List.nil_append,
      accept?_of_mem colon _ depth (by decide), expect_of_mem word _ depth (by decide), ok_bind]
    rcases known with integer | real
    · simp only [Derivation.tree, integer, if_true]
      rfl
    · simp only [Derivation.tree, real, if_true]
      rfl

/-- A token of other kinds is not accepted. -/
lemma accept?_of_other {kinds} (t : TokenOf kinds) (kinds' : List TokenKind) (ts : List Token)
    (depth : Nat) (disjoint : ∀ k ∈ kinds, k ∉ kinds') :
    Cursor.accept? ⟨t.1 :: ts, depth⟩ kinds' = none :=
  accept?_of_stops depth (stops_cons t ts disjoint)

/-- A call without arguments after its parenthesis. -/
lemma complete_emptyCall (callee : Token) (q : TokenOf [.rightParen]) {depth r}
    (room : depth < nestingLimit) :
    Expr.callTail inner callee ⟨q.1 :: r, depth⟩ = .ok (.call callee [], ⟨r, depth⟩) := by
  have closed := accept?_of_mem q r (depth + 1) (by decide)
  simp only [Expr.callTail, deepen_of_lt room, ok_bind, closed, Option.isSome_some, if_true,
    pure_bind, expect_of_mem q r (depth + 1) (by decide)]
  rfl

/-- A call with arguments after its parenthesis. -/
lemma complete_callTail (complete : Complete .logic inner n) (callee : Token)
    (first : Derivation .logic) (rest : Derivation .arguments) (q : TokenOf [.rightParen]) {depth r}
    (short : first.yield.length + rest.yield.length ≤ n)
    (room : depth + 1 + max first.demand rest.demand ≤ nestingLimit) (known : first.Known)
    (knownRest : rest.Known) :
    Expr.callTail inner callee ⟨first.yield ++ (rest.yield ++ q.1 :: r), depth⟩ =
      .ok (.call callee (first.tree :: rest.tree), ⟨r, depth⟩) := by
  have read := complete_arguments complete (first.yield ++ (rest.yield ++ q.1 :: r)) first rest
    (depth + 1) (q.1 :: r) (by simp only [List.length_append]; omega) short room known knownRest
    (stops_cons q r (by decide))
  have more : Cursor.accept? ⟨first.yield ++ (rest.yield ++ q.1 :: r), depth + 1⟩ [.rightParen] =
      none := by
    obtain ⟨t, ts, e, start⟩ := first.yield_eq_cons trivial
    rw [e]
    exact accept?_of_other ⟨t, start⟩ _ _ _ (by decide)
  simp only [Expr.callTail, deepen_of_lt (show depth < _ by omega), ok_bind, more,
    Option.isSome_none, if_false, Bool.false_eq_true, read,
    expect_of_mem q r (depth + 1) (by decide)]
  rfl

/-- A group after its parenthesis. -/
lemma complete_groupTail (complete : Complete .logic inner n) (e : Derivation .logic)
    (q : TokenOf [.rightParen]) {depth r} (short : e.yield.length ≤ n)
    (room : depth + 1 + e.demand ≤ nestingLimit) (known : e.Known) :
    Expr.groupTail inner ⟨e.yield ++ q.1 :: r, depth⟩ = .ok (.group e.tree, ⟨r, depth⟩) := by
  have read := complete e (depth + 1) (q.1 :: r) short room known (stops_cons q r (by decide))
  simp only [Expr.groupTail, deepen_of_lt (show depth < _ by omega), ok_bind, read,
    expect_of_mem q r (depth + 1) (by decide)]
  rfl

/-- A range after its bracket. -/
lemma complete_rangeTail (complete : Complete .logic inner n) (low high : Derivation .logic)
    (mode : Derivation .mode) (colon : TokenOf [.colon]) (q : TokenOf [.rightBracket]) {depth r}
    (short : low.yield.length + high.yield.length ≤ n)
    (room : depth + 1 + max low.demand high.demand ≤ nestingLimit) (known : low.Known)
    (knownHigh : high.Known) (knownMode : mode.Known) :
    Expr.rangeTail inner
        ⟨low.yield ++ colon.1 :: (high.yield ++ (mode.yield ++ q.1 :: r)), depth⟩ =
      .ok (.range low.tree high.tree mode.tree, ⟨r, depth⟩) := by
  have readLow := complete low (depth + 1) (colon.1 :: (high.yield ++ (mode.yield ++ q.1 :: r)))
    (by omega) (by omega) known (stops_cons colon _ (by decide))
  have readHigh := complete high (depth + 1) (mode.yield ++ q.1 :: r) (by omega) (by omega)
    knownHigh (stops_mode mode q r)
  have readMode := complete_rangeMode mode (depth + 1) (q.1 :: r) (Nat.le_refl _)
    (by cases mode <;> simp only [Derivation.demand] <;> omega) knownMode
    (stops_cons q r (by decide))
  simp only [Expr.rangeTail, deepen_of_lt (show depth < _ by omega), ok_bind, readLow,
    expect_of_mem colon _ (depth + 1) (by decide), readHigh, readMode,
    expect_of_mem q r (depth + 1) (by decide)]
  rfl

/-- An operand, with one token more than what is inside of it. -/
lemma complete_primary (complete : Complete .logic inner n) :
    Complete .primary (Expr.primary inner) (n + 1) := by
  intro d depth r short room known stop
  -- each case refuses the first tokens of the cases before it
  cases d with
  | literal t =>
    simp only [Expr.primary, Derivation.yield, List.cons_append, List.nil_append,
      accept?_of_mem t _ depth (by decide)]
    rfl
  | name t =>
    have none := accept?_of_stops depth (show Stops [.leftParen] r from stop)
    simp only [Expr.primary, Derivation.yield, List.cons_append, List.nil_append,
      accept?_of_other t [.number, .stringLiteral] _ depth (by decide),
      accept?_of_mem t _ depth (by decide), none]
    rfl
  | emptyCall t l q =>
    simp only [Derivation.demand] at room
    simp only [Expr.primary, Derivation.yield, List.cons_append, List.nil_append,
      accept?_of_other t [.number, .stringLiteral] _ depth (by decide),
      accept?_of_mem t _ depth (by decide), accept?_of_mem l _ depth (by decide)]
    exact complete_emptyCall t.1 q (by omega)
  | call t l first rest q =>
    simp only [Derivation.yield, Derivation.demand, List.length_cons, List.length_append,
      List.length_nil] at short room
    simp only [Expr.primary, Derivation.yield, List.cons_append, List.append_assoc,
      List.nil_append, accept?_of_other t [.number, .stringLiteral] _ depth (by decide),
      accept?_of_mem t _ depth (by decide), accept?_of_mem l _ depth (by decide)]
    exact complete_callTail complete t.1 first rest q (by omega) (by omega) known.1 known.2
  | group l e q =>
    simp only [Derivation.yield, Derivation.demand, List.length_cons, List.length_append,
      List.length_nil] at short room
    simp only [Expr.primary, Derivation.yield, List.cons_append, List.append_assoc,
      List.nil_append, accept?_of_other l [.number, .stringLiteral] _ depth (by decide),
      accept?_of_other l [.identifier] _ depth (by decide),
      accept?_of_mem l _ depth (by decide)]
    exact complete_groupTail complete e q (by omega) (by omega) known
  | range l low colon high mode q =>
    simp only [Derivation.yield, Derivation.demand, List.length_cons, List.length_append,
      List.length_nil] at short room
    simp only [Expr.primary, Derivation.yield, List.cons_append, List.append_assoc,
      List.nil_append, accept?_of_other l [.number, .stringLiteral] _ depth (by decide),
      accept?_of_other l [.identifier] _ depth (by decide),
      accept?_of_other l [.leftParen] _ depth (by decide),
      accept?_of_mem l _ depth (by decide)]
    exact complete_rangeTail complete low high mode colon q (by omega) (by omega) known.1 known.2.1
      known.2.2

/-- An expression is read. -/
lemma complete_expression (n : Nat) : Complete .logic (Expr.expression n) n := by
  induction n with
  | zero =>
    intro d depth r short
    obtain ⟨t, ts, e, -⟩ := d.yield_eq_cons trivial
    rw [e] at short
    cases short
  | succ n ih =>
    -- what stands in parentheses or brackets is shorter by these, so `n` is enough for it
    have unary : Complete .unary (Expr.unaryChain (Expr.primary (Expr.expression n))) (n + 1) :=
      fun d depth r short => complete_signs (complete_primary ih) d _ depth r (by simp) short
    exact complete_logicChain (complete_ladder unary levels List.suffix_rfl)

end Completeness

/-- No derivation derives the end. -/
lemma Derivation.not_endOfText {s} (d : Derivation s) (proper : s.Proper) :
    ∀ t ∈ d.yield, t.kind ≠ .endOfText := by
  have token {kinds : List TokenKind} (t : TokenOf kinds) (other : .endOfText ∉ kinds) :
      t.1.kind ≠ .endOfText := fun e => other (e ▸ t.2)
  induction d with
  | logic first rest ihFirst ihRest =>
    simp only [yield, List.forall_mem_append]
    exact ⟨ihFirst List.suffix_rfl, ihRest trivial⟩
  | condition connective e rest ihE ihRest =>
    simp only [yield, List.forall_mem_cons, List.forall_mem_append]
    exact ⟨token connective (by decide), ihE List.suffix_rfl, ihRest trivial⟩
  | operand e ih => exact ih trivial
  | @level op ops first rest ihFirst ihRest =>
    simp only [yield, List.forall_mem_append]
    exact ⟨ihFirst ((List.suffix_cons op ops).trans proper), ihRest proper⟩
  | @operation op ops operator e rest ihE ihRest =>
    simp only [yield, List.forall_mem_cons, List.forall_mem_append]
    exact ⟨token operator (endOfText_not_mem proper),
      ihE ((List.suffix_cons op ops).trans proper), ihRest proper⟩
  | sign operator e ih =>
    simp only [yield, List.forall_mem_cons]
    exact ⟨token operator (by decide), ih trivial⟩
  | unsigned e ih => exact ih trivial
  | literal t =>
    simp only [yield, List.forall_mem_cons]
    exact ⟨token t (by decide), List.forall_mem_nil _⟩
  | name t =>
    simp only [yield, List.forall_mem_cons]
    exact ⟨token t (by decide), List.forall_mem_nil _⟩
  | emptyCall callee l r =>
    simp only [yield, List.forall_mem_cons]
    exact ⟨token callee (by decide), token l (by decide), token r (by decide),
      List.forall_mem_nil _⟩
  | call callee l first rest r ihFirst ihRest =>
    simp only [yield, List.forall_mem_cons, List.forall_mem_append]
    exact ⟨token callee (by decide), token l (by decide), ihFirst trivial, ihRest trivial,
      token r (by decide), List.forall_mem_nil _⟩
  | group l inner r ih =>
    simp only [yield, List.forall_mem_cons, List.forall_mem_append]
    exact ⟨token l (by decide), ih trivial, token r (by decide), List.forall_mem_nil _⟩
  | range l low colon high mode r ihLow ihHigh ihMode =>
    simp only [yield, List.forall_mem_cons, List.forall_mem_append]
    exact ⟨token l (by decide), ihLow trivial, token colon (by decide), ihHigh trivial,
      ihMode trivial, token r (by decide), List.forall_mem_nil _⟩
  | argument comma e rest ihE ihRest =>
    simp only [yield, List.forall_mem_cons, List.forall_mem_append]
    exact ⟨token comma (by decide), ihE trivial, ihRest trivial⟩
  | flag colon word =>
    simp only [yield, List.forall_mem_cons]
    exact ⟨token colon (by decide), token word (by decide), List.forall_mem_nil _⟩
  | noCondition | noOperation | noArgument | noMode => exact List.forall_mem_nil _

/-- The tokens before the end of the text. -/
def text (tokens : List Token) : List Token := tokens.takeWhile (·.kind ≠ .endOfText)

/-- The text of some tokens is what stands before a token that ends it, or all of them. -/
lemma text_append {ts rest : List Token} (inner : ∀ t ∈ ts, t.kind ≠ .endOfText)
    (ends : ∀ t ∈ rest.head?, t.kind = .endOfText) : text (ts ++ rest) = ts := by
  have all : ∀ t ∈ ts, decide (t.kind ≠ .endOfText) = true := by
    intro t ht
    exact decide_eq_true (inner t ht)
  rw [text, List.takeWhile_append_of_pos all]
  cases rest with
  | nil => simp
  | cons t rest => simp [ends t rfl]

/-- Reading succeeds exactly on the tokens that have a derivation with existing modes and enough
room, and gives the tree of the derivation. -/
lemma parse_eq_ok {tokens : List Token} {e : Expr} :
    Expr.parse tokens = .ok e ↔
      ∃ d : Derivation .logic,
        d.yield = text tokens ∧ d.demand ≤ nestingLimit ∧ d.Known ∧ d.tree = e := by
  constructor
  · intro h
    obtain ⟨⟨x, c⟩, read, h⟩ := bind_eq_ok.mp h
    dsimp only at h
    split at h
    · rename_i ended
      cases h
      obtain ⟨d, rfl, span⟩ := sound_expression _ _ _ _ (Nat.zero_le _) read
      have tokens' : tokens = d.yield ++ c.rest := span.tokens
      have room : 0 + d.demand ≤ nestingLimit := span.room
      refine ⟨d, ?_, by omega, span.known, rfl⟩
      rw [tokens', text_append (d.not_endOfText trivial)]
      intro t ht
      rw [← ended, Cursor.peek, List.headD_eq_head?_getD, Option.mem_def.mp ht]
      rfl
    · cases h
  · rintro ⟨d, yield, room, known, rfl⟩
    have split : tokens = d.yield ++ tokens.dropWhile (·.kind ≠ .endOfText) := by
      rw [yield, text, List.takeWhile_append_dropWhile]
    have ends : ∀ t ∈ (tokens.dropWhile (·.kind ≠ .endOfText)).head?, t.kind = .endOfText := by
      intro t ht
      have found := List.head?_dropWhile_not (fun t : Token => decide (t.kind ≠ .endOfText)) tokens
      rw [Option.mem_def.mp ht] at found
      simpa using found
    -- what follows the text cannot continue it, so the reader stops there
    have stop : Stops (Symbol.continuations .logic) (tokens.dropWhile (·.kind ≠ .endOfText)) := by
      intro t ht
      rw [ends t ht]
      decide
    have short : d.yield.length ≤ tokens.length := by
      rw [split, List.length_append]
      exact Nat.le_add_right _ _
    have read := complete_expression tokens.length d 0 _ short (by omega) known stop
    rw [← split] at read
    simp only [Expr.parse, read, ok_bind]
    rw [if_pos]
    · rfl
    · rw [Cursor.peek, List.headD_eq_head?_getD]
      cases e : (tokens.dropWhile (·.kind ≠ .endOfText)).head? with
      | none => rfl
      | some t => exact ends t e

/-- Reading accepts exactly the tokens that the grammar derives with existing modes and a demand of
at most 64, and gives the tree of their derivation, which is unique. -/
theorem parse_reads_grammar (ts : List Token) (eof : Token)
    (inner : ∀ t ∈ ts, t.kind ≠ .endOfText) (last : eof.kind = .endOfText) :
    (∀ e, Expr.parse (ts ++ [eof]) = .ok e ↔
      ∃ d : Derivation .logic, d.yield = ts ∧ d.demand ≤ 64 ∧ d.Known ∧ d.tree = e) ∧
    ∀ d d' : Derivation .logic, d.yield = ts → d'.yield = ts → d = d' := by
  constructor
  · intro e
    have ends : ∀ t ∈ [eof].head?, t.kind = .endOfText := by
      rintro t ⟨⟩
      exact last
    rw [parse_eq_ok, text_append inner ends]
    rfl
  · intro d d' h h'
    exact d.unique d' (h.trans h'.symm)

/-- `a - b - c`, with the operators associating to the left. -/
def differences : Derivation .logic :=
  let minus (column : Nat) : TokenOf [.minus] :=
    ⟨⟨.minus, "-", none, column⟩, List.mem_singleton.mpr rfl⟩
  let operand (lexeme : String) (column : Nat) : Derivation (.binary _) :=
    .lift [.plus, .slash, .star, .caret] (.ofName lexeme column)
  let chain : Derivation (.binary [.minus, .plus, .slash, .star, .caret]) :=
    .level (operand "a" 1) (.operation (minus 3) (operand "b" 5)
      (.operation (minus 7) (operand "c" 9) .noOperation))
  .single (.level (.level (.level (.level (.level (.level chain .noOperation) .noOperation)
    .noOperation) .noOperation) .noOperation) .noOperation)

/-- Differences are read from left to right. -/
theorem parse_reads_differences :
    (∀ t ∈ differences.yield, t.kind ≠ .endOfText) ∧
    Expr.parse (differences.yield ++ [⟨.endOfText, "", none, 10⟩]) =
      .ok (.binary (.binary (.ref ⟨.identifier, "a", none, 1⟩) ⟨.minus, "-", none, 3⟩
        (.ref ⟨.identifier, "b", none, 5⟩)) ⟨.minus, "-", none, 7⟩
        (.ref ⟨.identifier, "c", none, 9⟩)) := by
  have inner : ∀ t ∈ differences.yield, t.kind ≠ .endOfText := by decide
  refine ⟨inner, ?_⟩
  apply ((parse_reads_grammar _ _ inner rfl).1 _).mpr
  have known : differences.Known := by
    simp [differences, Derivation.single, Derivation.ofName]
  exact ⟨differences, rfl, by decide, known, rfl⟩

/-- `[a:b:x]`, whose mode is a name but does not exist. -/
def oddRange : Derivation .logic :=
  let bound (lexeme : String) (column : Nat) : Derivation .logic :=
    .single (.lift levels (.ofName lexeme column))
  .single (.lift levels (.unsigned (.range ⟨⟨.leftBracket, "[", none, 1⟩, by decide⟩
    (bound "a" 2) ⟨⟨.colon, ":", none, 3⟩, by decide⟩ (bound "b" 4)
    (.flag ⟨⟨.colon, ":", none, 5⟩, by decide⟩ ⟨⟨.identifier, "x", none, 6⟩, by decide⟩)
    ⟨⟨.rightBracket, "]", none, 7⟩, by decide⟩)))

/-- The grammar derives a range with any name for its mode, but not every one is accepted. -/
theorem parse_refuses_oddRange :
    oddRange.yield = [⟨.leftBracket, "[", none, 1⟩, ⟨.identifier, "a", none, 2⟩,
      ⟨.colon, ":", none, 3⟩, ⟨.identifier, "b", none, 4⟩, ⟨.colon, ":", none, 5⟩,
      ⟨.identifier, "x", none, 6⟩, ⟨.rightBracket, "]", none, 7⟩] ∧
    oddRange.demand ≤ 64 ∧
    ∀ e, Expr.parse (oddRange.yield ++ [⟨.endOfText, "", none, 8⟩]) ≠ .ok e := by
  refine ⟨rfl, by decide, ?_⟩
  intro e h
  obtain ⟨d, yield, -, known, -⟩ := parse_eq_ok.mp h
  have same : d = oddRange := d.unique oddRange yield
  subst same
  simp [oddRange, Derivation.single] at known

end Linework.Grammar
