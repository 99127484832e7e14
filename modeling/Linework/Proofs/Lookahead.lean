import Linework.Proofs.Parsing

/-!
# Readers that look one token ahead

What a reader makes of some tokens is settled by the tokens that it passes and the next one. If it
fails, a token is at fault: those before it begin a phrase, and whatever follows it, reading fails.
`Foresees` says both of a reader, for all the bounds that it may be given. It is kept when readers
are put together, and so has to be looked at once for each way of doing so.
-/

namespace Linework.Grammar
open Linework.Expr (Cursor Reader nestingLimit)

/-- A set of phrases: the nesting before a phrase, its tokens, and the nesting after it. -/
abbrev Phrases := Nat → List Token → Nat → Prop

/-- The text ends among these tokens. -/
def Ended (ts : List Token) : Prop := ∃ t ∈ ts, t.kind = .endOfText

/-- Where an error points to: the token at fault, or the one after it if that is nested too
deeply. -/
def Blames (e : SyntaxError) (t : Token) (ahead : List Token) : Prop :=
  if e.cause = .tooDeep then ∃ u ∈ ahead.head?, e.column = u.column else e.column = t.column

/-- Tokens that begin a phrase. -/
def Begins (phrases : Phrases) (depth : Nat) (ts : List Token) : Prop :=
  ∃ more depth', depth' ≤ nestingLimit ∧ phrases depth (ts ++ more) depth'

section Foresight

variable {ι α : Type} (size : ι → Nat) (family : ι → Reader α) (phrases : Phrases)

/-- Something is read at some tokens. It is a phrase, and all readers of a family with a sufficient
bound read it wherever the same token follows. -/
def Settles (ts : List Token) (depth : Nat) (x : α) (c : Cursor) : Prop :=
  Ended c.rest ∧ c.depth ≤ nestingLimit ∧
    ∃ used, ts = used ++ c.rest ∧ phrases depth used c.depth ∧
      ∀ j rest, (used ++ rest).length ≤ size j → rest.head? = c.rest.head? →
        family j ⟨used ++ rest, depth⟩ = .ok (x, ⟨rest, c.depth⟩)

/-- Nothing can be read at some tokens. One of them is at fault: those before it begin a phrase, and
all readers of a family with a sufficient bound fail, whatever follows it. -/
def Fails (ts : List Token) (depth : Nat) (e : SyntaxError) : Prop :=
  ∃ good t ahead, ts = good ++ t :: ahead ∧ Blames e t ahead ∧ Begins phrases depth good ∧
    ∀ j ahead', (good ++ t :: ahead').length ≤ size j →
      ∃ e', family j ⟨good ++ t :: ahead', depth⟩ = .error e'

/-- What the reader with the bound `i` does with tokens for which the bound is sufficient is settled
by the token at which it stops. -/
structure Foresees (i : ι) : Prop where
  ok {ts depth x c} : ts.length ≤ size i → Ended ts → depth ≤ nestingLimit →
    family i ⟨ts, depth⟩ = .ok (x, c) → Settles size family phrases ts depth x c
  error {ts depth e} : ts.length ≤ size i → Ended ts → depth ≤ nestingLimit →
    family i ⟨ts, depth⟩ = .error e → Fails size family phrases ts depth e

end Foresight

/-- Some phrase can always follow. -/
def Live (phrases : Phrases) : Prop := ∀ depth ≤ nestingLimit, Begins phrases depth []

/-- A phrase and then another one. -/
def Phrases.seq (first second : Phrases) : Phrases := fun depth ts depth'' =>
  ∃ a b depth', ts = a ++ b ∧ first depth a depth' ∧ second depth' b depth''

/-- A single token. -/
def Phrases.single (kind : TokenKind) : Phrases := fun depth ts depth' =>
  depth' = depth ∧ ∃ t : Token, t.kind = kind ∧ ts = [t]

/-- No token at all. -/
def Phrases.nothing (f : Nat → Nat) : Phrases := fun depth ts depth' => ts = [] ∧ depth' = f depth

section Combinators

variable {α β : Type}

/-- Reads nothing. -/
def done (x : α) (f : Nat → Nat) : Reader α := fun c => .ok (x, ⟨c.rest, f c.depth⟩)

/-- Reads one thing after the other. -/
def andThen (read : Reader α) (next : α → Reader β) : Reader β := fun c => do
  let (x, c) ← read c
  next x c

/-- Goes one level deeper, if what follows is nested. -/
def enter (nests : Bool) (c : Cursor) : Except SyntaxError Cursor :=
  if nests then c.deepen else .ok c

/-- Passes a token of some kinds, if it is the next one. -/
def branch (nests : Bool) (kinds : List TokenKind) (yes : Token → Reader α) (no : Reader α) :
    Reader α := fun c =>
  match c.accept? kinds with
  | some (t, c) => do
    let c ← enter nests c
    yes t c
  | none => no c

/-- Looks whether a token of some kinds is the next one. -/
def ahead (kinds : List TokenKind) (yes no : Reader α) : Reader α := fun c =>
  if (c.accept? kinds).isSome then yes c else no c

/-- Goes back to the nesting there was before. -/
def restoring (read : Reader α) : Reader α := fun c => do
  let (x, next) ← read c
  return (x, { next with depth := c.depth })

end Combinators

/-- What follows a token that is not the end has an end. -/
lemma Ended.tail {t : Token} {ts : List Token} (h : Ended (t :: ts)) (other : t.kind ≠ .endOfText) :
    Ended ts := by
  obtain ⟨u, mem, last⟩ := h
  rcases List.mem_cons.mp mem with rfl | mem
  · exact absurd last other
  · exact ⟨u, mem, last⟩

/-- Tokens with an end have a first one. -/
lemma Ended.exists_cons {ts : List Token} (h : Ended ts) : ∃ t rest, ts = t :: rest := by
  obtain ⟨u, mem, -⟩ := h
  exact List.exists_cons_of_ne_nil (List.ne_nil_of_mem mem)

/-- Nothing begins a phrase that can always follow. -/
lemma Live.begins {phrases : Phrases} (live : Live phrases) {depth : Nat}
    (room : depth ≤ nestingLimit) : Begins phrases depth [] :=
  live depth room

/-- One phrase and then another one can always follow. -/
lemma Live.seq {first second : Phrases} (h : Live first) (h' : Live second) :
    Live (first.seq second) := by
  intro depth room
  obtain ⟨a, depth', room', phrase⟩ := h depth room
  obtain ⟨b, depth'', room'', phrase'⟩ := h' depth' room'
  exact ⟨a ++ b, depth'', room'', a, b, depth', rfl, phrase, phrase'⟩

/-- A token can always follow. -/
lemma live_single (kind : TokenKind) : Live (.single kind) := by
  intro depth room
  exact ⟨[⟨kind, "", none, 0⟩], depth, room, rfl, _, rfl, rfl⟩

/-- Nothing can always follow, if it does not lead too deep. -/
lemma live_nothing {f : Nat → Nat} (bounded : ∀ d ≤ nestingLimit, f d ≤ nestingLimit) :
    Live (.nothing f) := by
  intro depth room
  exact ⟨[], f depth, bounded depth room, rfl, rfl⟩

/-- A token of another kind is not accepted. -/
lemma accept?_of_not_mem {kinds : List TokenKind} {t : Token} (other : t.kind ∉ kinds)
    (ts : List Token) (depth : Nat) : Cursor.accept? ⟨t :: ts, depth⟩ kinds = none := by
  apply accept?_of_stops
  rintro u ⟨⟩
  exact other

/-- Where nothing is nested there is always room. -/
lemma enter_false (c : Cursor) : enter false c = .ok c := rfl

/-- There is room for what is nested, or it is the same error wherever it stands. -/
lemma enter_cases (nests : Bool) {depth : Nat} (room : depth ≤ nestingLimit) :
    (depth + nests.toNat ≤ nestingLimit ∧
      ∀ rest, enter nests ⟨rest, depth⟩ = .ok ⟨rest, depth + nests.toNat⟩) ∨
    ∀ rest, enter nests ⟨rest, depth⟩ = Cursor.fail ⟨rest, depth⟩ .tooDeep := by
  cases nests with
  | false => exact .inl ⟨room, fun _ => rfl⟩
  | true =>
    rcases Nat.lt_or_ge depth nestingLimit with below | full
    · exact .inl ⟨below, fun _ => if_pos below⟩
    · exact .inr fun _ => if_neg (Nat.not_lt.mpr full)

section Branches

variable {α : Type} {kinds : List TokenKind} {t : Token} (nests : Bool) (yes : Token → Reader α)
variable (no : Reader α)

/-- A token of the kinds is read, and decides. -/
lemma branch_of_mem (inner : .endOfText ∉ kinds) (kind : t.kind ∈ kinds) (ts : List Token)
    (depth : Nat) :
    branch nests kinds yes no ⟨t :: ts, depth⟩ = (enter nests ⟨ts, depth⟩ >>= yes t) := by
  simp only [branch, accept?_of_mem ⟨t, kind⟩ ts depth inner]

/-- A token of another kind is left where it is. -/
lemma branch_of_not_mem (other : t.kind ∉ kinds) (ts : List Token) (depth : Nat) :
    branch nests kinds yes no ⟨t :: ts, depth⟩ = no ⟨t :: ts, depth⟩ := by
  simp only [branch, accept?_of_not_mem other]

end Branches

/-- The next token is the same after the same tokens. -/
lemma head?_append_congr {used rest rest' : List Token} (same : rest'.head? = rest.head?) :
    (used ++ rest').head? = (used ++ rest).head? := by
  rw [List.head?_append, List.head?_append, same]

section Pointwise

variable {ι α β : Type} {size size' : ι → Nat} {phrases phrases' : Phrases}
variable {family family' : ι → Reader α} {next : ι → α → Reader β}
variable {ts : List Token} {depth : Nat} {x : α} {c : Cursor} {e : SyntaxError}

/-- What is read is a phrase of a larger kind too. -/
lemma Settles.mono (h : Settles size family phrases ts depth x c)
    (sub : ∀ ts d', phrases depth ts d' → phrases' depth ts d') :
    Settles size family phrases' ts depth x c := by
  obtain ⟨ended, room, used, split, phrase, again⟩ := h
  exact ⟨ended, room, used, split, sub _ _ phrase, again⟩

/-- The tokens before an error begin a phrase of a larger kind too. -/
lemma Fails.mono (h : Fails size family phrases ts depth e)
    (sub : ∀ ts d', phrases depth ts d' → phrases' depth ts d') :
    Fails size family phrases' ts depth e := by
  obtain ⟨good, t, ahead, split, blames, ⟨more, d, room, phrase⟩, again⟩ := h
  exact ⟨good, t, ahead, split, blames, ⟨more, d, room, sub _ _ phrase⟩, again⟩

/-- Only what the readers do at the same next token matters. -/
lemma Settles.agree {t : Token} (h : Settles size family phrases (t :: ts) depth x c)
    (same : ∀ j ts', (t :: ts').length ≤ size j →
      family' j ⟨t :: ts', depth⟩ = family j ⟨t :: ts', depth⟩) :
    Settles size family' phrases (t :: ts) depth x c := by
  obtain ⟨ended, room, used, split, phrase, again⟩ := h
  refine ⟨ended, room, used, split, phrase, fun j rest short follows => ?_⟩
  have head : (used ++ rest).head? = some t := by rw [head?_append_congr follows, ← split]; rfl
  obtain ⟨ts', shape⟩ := List.head?_eq_some_iff.mp head
  rw [← again j rest short follows, shape]
  rw [shape] at short
  exact same j ts' short

/-- Readers that agree on the first token fail alike. -/
lemma Fails.agree {t : Token} (h : Fails size family phrases (t :: ts) depth e)
    (same : ∀ j ts', (t :: ts').length ≤ size j →
      family' j ⟨t :: ts', depth⟩ = family j ⟨t :: ts', depth⟩) :
    Fails size family' phrases (t :: ts) depth e := by
  obtain ⟨good, u, ahead, split, blames, begins, again⟩ := h
  refine ⟨good, u, ahead, split, blames, begins, fun j ahead' short => ?_⟩
  have stays : (u :: ahead').head? = (u :: ahead).head? := rfl
  have head : (good ++ u :: ahead').head? = some t := by
    rw [head?_append_congr stays, ← split]
    rfl
  obtain ⟨ts', shape⟩ := List.head?_eq_some_iff.mp head
  obtain ⟨e', failed⟩ := again j ahead' short
  rw [shape] at short failed ⊢
  exact ⟨e', (same j ts' short).trans failed⟩

/-- Reading adds no tokens. -/
lemma Settles.length_le (h : Settles size family phrases ts depth x c) :
    c.rest.length ≤ ts.length := by
  obtain ⟨-, -, used, rfl, -⟩ := h
  rw [List.length_append]
  omega

/-- A token is passed before something is read. -/
lemma Settles.pass {t : Token} {depth' : Nat} (h : Settles size' family' phrases' ts depth' x c)
    (step : ∀ j ts', family j ⟨t :: ts', depth⟩ = family' j ⟨ts', depth'⟩)
    (sub : ∀ ts d', phrases' depth' ts d' → phrases depth (t :: ts) d')
    (shift : ∀ j, size j ≤ size' j + 1) : Settles size family phrases (t :: ts) depth x c := by
  obtain ⟨ended, room, used, rfl, phrase, again⟩ := h
  refine ⟨ended, room, t :: used, rfl, sub _ _ phrase, fun j rest short follows => ?_⟩
  have enough := shift j
  rw [List.cons_append, List.length_cons] at short
  exact (step j _).trans (again j rest (by omega) follows)

/-- A token is passed before nothing can be read. -/
lemma Fails.pass {t : Token} {depth' : Nat} (h : Fails size' family' phrases' ts depth' e)
    (step : ∀ j ts', family j ⟨t :: ts', depth⟩ = family' j ⟨ts', depth'⟩)
    (sub : ∀ ts d', phrases' depth' ts d' → phrases depth (t :: ts) d')
    (shift : ∀ j, size j ≤ size' j + 1) : Fails size family phrases (t :: ts) depth e := by
  obtain ⟨good, u, ahead, rfl, blames, ⟨more, d, room, phrase⟩, again⟩ := h
  refine ⟨t :: good, u, ahead, rfl, blames, ⟨more, d, room, sub _ _ phrase⟩,
    fun j ahead' short => ?_⟩
  have enough := shift j
  rw [List.cons_append, List.length_cons] at short
  obtain ⟨e', failed⟩ := again j ahead' (by omega)
  exact ⟨e', (step j _).trans failed⟩

/-- The next token is at fault. -/
lemma Fails.here {t : Token} (blames : Blames e t ts) (begins : Begins phrases depth [])
    (dead : ∀ j ts', ∃ e', family j ⟨t :: ts', depth⟩ = .error e') :
    Fails size family phrases (t :: ts) depth e :=
  ⟨[], t, ts, rfl, blames, begins, fun j ts' _ => dead j ts'⟩

/-- Two things are read, the second one from the token on that follows the first one. -/
lemma Settles.andThen {y : β} {c' : Cursor} (h : Settles size family phrases ts depth x c)
    (h' : Settles size (fun j => next j x) phrases' c.rest c.depth y c') :
    Settles size (fun j => Grammar.andThen (family j) (next j)) (phrases.seq phrases') ts depth y
      c' := by
  obtain ⟨-, -, used, rfl, phrase, again⟩ := h
  obtain ⟨ended, room, used', split, phrase', again'⟩ := h'
  refine ⟨ended, room, used ++ used', by rw [split, List.append_assoc],
    ⟨used, used', _, rfl, phrase, phrase'⟩, fun j rest short follows => ?_⟩
  rw [List.append_assoc] at short ⊢
  have first := again j (used' ++ rest) short (by rw [split, head?_append_congr follows])
  rw [List.length_append] at short
  simp only [Grammar.andThen, first, ok_bind]
  exact again' j rest (by omega) follows

/-- The first of two things cannot be read, but the second one could follow. -/
lemma Fails.andThen (h : Fails size family phrases ts depth e) (live : Live phrases') :
    Fails size (fun j => Grammar.andThen (family j) (next j)) (phrases.seq phrases') ts depth
      e := by
  obtain ⟨good, t, ahead, split, blames, ⟨more, d, room, phrase⟩, again⟩ := h
  obtain ⟨more', d', room', phrase'⟩ := live d room
  refine ⟨good, t, ahead, split, blames, ⟨more ++ more', d', room', good ++ more, more', d,
    (List.append_assoc ..).symm, phrase, phrase'⟩, fun j ahead' short => ?_⟩
  obtain ⟨e', failed⟩ := again j ahead' short
  refine ⟨e', ?_⟩
  simp only [Grammar.andThen, failed]
  rfl

/-- The first of two things is read and the second one cannot be read. -/
lemma Settles.andThen_fails (h : Settles size family phrases ts depth x c)
    (h' : Fails size (fun j => next j x) phrases' c.rest c.depth e) :
    Fails size (fun j => Grammar.andThen (family j) (next j)) (phrases.seq phrases') ts depth
      e := by
  obtain ⟨-, -, used, rfl, phrase, again⟩ := h
  obtain ⟨good, t, ahead, split, blames, ⟨more, d, room, phrase'⟩, again'⟩ := h'
  refine ⟨used ++ good, t, ahead, by rw [split, List.append_assoc], blames,
    ⟨more, d, room, used, good ++ more, _, List.append_assoc .., phrase, phrase'⟩,
    fun j ahead' short => ?_⟩
  rw [List.append_assoc] at short ⊢
  have head : (good ++ t :: ahead').head? = c.rest.head? := by
    rw [split]
    exact head?_append_congr rfl
  have first := again j (good ++ t :: ahead') short head
  rw [List.length_append] at short
  simp only [Grammar.andThen, first, ok_bind]
  exact again' j ahead' (by omega)

/-- The depth may be put back after something is read. -/
lemma Settles.restoring (h : Settles size family phrases ts depth x c)
    (room : depth ≤ nestingLimit) :
    Settles size (fun j => Grammar.restoring (family j))
      (fun d ts d' => d' = d ∧ ∃ inner, phrases d ts inner) ts depth x ⟨c.rest, depth⟩ := by
  obtain ⟨ended, -, used, split, phrase, again⟩ := h
  refine ⟨ended, room, used, split, ⟨rfl, _, phrase⟩, fun j rest short follows => ?_⟩
  simp only [Grammar.restoring, again j rest short follows]
  rfl

/-- The depth does not matter after an error. -/
lemma Fails.restoring (h : Fails size family phrases ts depth e) (room : depth ≤ nestingLimit) :
    Fails size (fun j => Grammar.restoring (family j))
      (fun d ts d' => d' = d ∧ ∃ inner, phrases d ts inner) ts depth e := by
  obtain ⟨good, t, ahead, split, blames, ⟨more, d, -, phrase⟩, again⟩ := h
  refine ⟨good, t, ahead, split, blames, ⟨more, depth, room, rfl, d, phrase⟩,
    fun j ahead' short => ?_⟩
  obtain ⟨e', failed⟩ := again j ahead' short
  refine ⟨e', ?_⟩
  simp only [Grammar.restoring, failed]
  rfl

end Pointwise

namespace Foresees

variable {ι κ α β : Type} {size size' : ι → Nat} {phrases phrases' : Phrases} {i : ι}
variable {family family' : ι → Reader α}

/-- Readers of phrases are readers of more phrases. -/
lemma mono (h : Foresees size family phrases i)
    (sub : ∀ d ts d', d ≤ nestingLimit → phrases d ts d' → phrases' d ts d') :
    Foresees size family phrases' i where
  ok short ended room read := (h.ok short ended room read).mono fun _ _ => sub _ _ _ room
  error short ended room read := (h.error short ended room read).mono fun _ _ => sub _ _ _ room

/-- A bound of zero is sufficient for no text. -/
lemma of_size_eq_zero (zero : size i = 0) : Foresees size family phrases i where
  ok short ended := by
    obtain ⟨t, rest, rfl⟩ := ended.exists_cons
    rw [zero] at short
    cases short
  error short ended := by
    obtain ⟨t, rest, rfl⟩ := ended.exists_cons
    rw [zero] at short
    cases short

/-- A reader may be chosen by the next token and the nesting. -/
lemma choose (h : ∀ t depth, ∃ chosen : ι → Reader α, Foresees size chosen phrases i ∧
      ∀ j ts, (t :: ts).length ≤ size j →
        family j ⟨t :: ts, depth⟩ = chosen j ⟨t :: ts, depth⟩) :
    Foresees size family phrases i where
  ok {ts depth x c} short ended room read := by
    obtain ⟨t, rest, rfl⟩ := ended.exists_cons
    obtain ⟨chosen, h, agree⟩ := h t depth
    rw [agree i rest short] at read
    exact (h.ok short ended room read).agree agree
  error {ts depth e} short ended room read := by
    obtain ⟨t, rest, rfl⟩ := ended.exists_cons
    obtain ⟨chosen, h, agree⟩ := h t depth
    rw [agree i rest short] at read
    exact (h.error short ended room read).agree agree

/-- Readers with a bound that is sufficient for no text do not matter. -/
lemma congr (h : Foresees size family phrases i)
    (same : ∀ j, 0 < size j → family' j = family j) : Foresees size family' phrases i := by
  refine choose fun t depth => ⟨family, h, fun j rest short => ?_⟩
  rw [same j (Nat.lt_of_lt_of_le (Nat.succ_pos _) short)]

/-- Bounds may be taken from other ones, as long as they are sufficient for no more. -/
lemma reindex {size' : κ → Nat} (f : κ → ι) {k : κ} (h : Foresees size family phrases (f k))
    (le : ∀ k, size' k ≤ size (f k)) :
    Foresees size' (fun k => family (f k)) phrases k where
  ok short ended room read := by
    obtain ⟨ended', room', used, split, phrase, again⟩ :=
      h.ok (Nat.le_trans short (le k)) ended room read
    exact ⟨ended', room', used, split, phrase,
      fun j rest short follows => again (f j) rest (Nat.le_trans short (le j)) follows⟩
  error short ended room read := by
    obtain ⟨good, t, ahead, split, blames, begins, again⟩ :=
      h.error (Nat.le_trans short (le k)) ended room read
    exact ⟨good, t, ahead, split, blames, begins,
      fun j ahead' short => again (f j) ahead' (Nat.le_trans short (le j))⟩

/-- Reading nothing foresees, if that does not lead too deep. -/
lemma done {f : Nat → Nat} (bounded : ∀ d ≤ nestingLimit, f d ≤ nestingLimit) (x : α) :
    Foresees size (fun _ => Grammar.done x f) (.nothing f) i where
  ok short ended room read := by
    cases read
    exact ⟨ended, bounded _ room, [], rfl, ⟨rfl, rfl⟩, fun _ _ _ _ => rfl⟩
  error _ _ _ read := by cases read

/-- One reader and then another one. -/
lemma andThen {next : ι → α → Reader β} (h : Foresees size family phrases i)
    (h' : ∀ x, Foresees size (fun i => next i x) phrases' i) (live : Live phrases') :
    Foresees size (fun i => Grammar.andThen (family i) (next i)) (phrases.seq phrases') i := by
  constructor
  · intro ts depth y c' short ended room read
    obtain ⟨⟨x, c⟩, first, second⟩ := bind_eq_ok.mp read
    have settles := h.ok short ended room first
    have short' := Nat.le_trans settles.length_le short
    exact settles.andThen ((h' x).ok short' settles.1 settles.2.1 second)
  · intro ts depth e short ended room read
    cases first : family i ⟨ts, depth⟩ with
    | error e₁ =>
      simp only [Grammar.andThen, first] at read
      cases read
      exact (h.error short ended room first).andThen live
    | ok p =>
      obtain ⟨x, c⟩ := p
      simp only [Grammar.andThen, first, ok_bind] at read
      have settles := h.ok short ended room first
      have short' := Nat.le_trans settles.length_le short
      exact settles.andThen_fails ((h' x).error short' settles.1 settles.2.1 read)

/-- The token passed tells how to go on. One that nests too deeply is at fault itself. -/
lemma branch {nests : Bool} {kinds : List TokenKind} {yes : ι → Token → Reader α}
    {no : ι → Reader α} (after : Token → Phrases) (inner : .endOfText ∉ kinds)
    (h : ∀ t, t.kind ∈ kinds → Foresees size' (fun i => yes i t) (after t) i)
    (h' : Foresees size no phrases i) (live : Live phrases)
    (sub : ∀ t d ts d', t.kind ∈ kinds → d + nests.toNat ≤ nestingLimit →
      after t (d + nests.toNat) ts d' → phrases d (t :: ts) d')
    (shift : ∀ j, size j ≤ size' j + 1) :
    Foresees size (fun i => Grammar.branch nests kinds (yes i) (no i)) phrases i := by
  constructor
  · intro ts depth x c short ended room read
    obtain ⟨t, ts, rfl⟩ := ended.exists_cons
    by_cases kind : t.kind ∈ kinds
    · have step j ts := branch_of_mem nests (yes j) (no j) inner kind ts depth
      rw [step] at read
      rcases enter_cases nests room with ⟨room', entered⟩ | full
      · simp only [entered, ok_bind] at step read
        have enough := shift i
        rw [List.length_cons] at short
        have ended' := ended.tail fun last => inner (last ▸ kind)
        exact ((h t kind).ok (by omega) ended' room' read).pass step
          (fun _ _ => sub t depth _ _ kind room') shift
      · rw [full] at read
        cases read
    · have step j ts (_ : (t :: ts).length ≤ size j) :=
        branch_of_not_mem nests (yes j) (no j) kind ts depth
      rw [step i ts short] at read
      exact (h'.ok short ended room read).agree step
  · intro ts depth e short ended room read
    obtain ⟨t, ts, rfl⟩ := ended.exists_cons
    by_cases kind : t.kind ∈ kinds
    · have step j ts := branch_of_mem nests (yes j) (no j) inner kind ts depth
      rw [step] at read
      have ended' := ended.tail fun last => inner (last ▸ kind)
      rcases enter_cases nests room with ⟨room', entered⟩ | full
      · simp only [entered, ok_bind] at step read
        have enough := shift i
        rw [List.length_cons] at short
        exact ((h t kind).error (by omega) ended' room' read).pass step
          (fun _ _ => sub t depth _ _ kind room') shift
      · -- the error is found one token late, when the token at fault has been passed
        rw [full] at read
        cases read
        obtain ⟨u, ts, rfl⟩ := ended'.exists_cons
        refine .here ⟨u, rfl, rfl⟩ (live.begins room) fun j ts' => ?_
        rw [step, full]
        exact ⟨_, rfl⟩
    · have step j ts (_ : (t :: ts).length ≤ size j) :=
        branch_of_not_mem nests (yes j) (no j) kind ts depth
      rw [step i ts short] at read
      exact (h'.error short ended room read).agree step

/-- A token that is looked at and not passed tells how to go on. -/
lemma ahead {kinds : List TokenKind} {yes no : ι → Reader α} (inner : .endOfText ∉ kinds)
    (h : Foresees size yes phrases i) (h' : Foresees size no phrases i) :
    Foresees size (fun i => Grammar.ahead kinds (yes i) (no i)) phrases i := by
  refine choose fun t depth => ?_
  by_cases kind : t.kind ∈ kinds
  · refine ⟨yes, h, fun j ts _ => ?_⟩
    simp only [Grammar.ahead, accept?_of_mem ⟨t, kind⟩ ts depth inner, Option.isSome_some, if_true]
  · refine ⟨no, h', fun j ts _ => ?_⟩
    simp only [Grammar.ahead, accept?_of_not_mem kind, Option.isSome_none, Bool.false_eq_true,
      if_false]

/-- The next token is passed, or it is at fault. -/
lemma token {read : Reader α} (judge : Token → Except SyntaxError α)
    (step : ∀ t rest depth,
      read ⟨t :: rest, depth⟩ = (judge t).map fun x => (x, ⟨rest, depth⟩))
    (passed : ∀ t x, judge t = .ok x →
      t.kind ≠ .endOfText ∧ ∀ depth ≤ nestingLimit, phrases depth [t] depth)
    (refused : ∀ t e, judge t = .error e → e.column = t.column ∧ e.cause ≠ .tooDeep)
    (live : Live phrases) : Foresees size (fun _ => read) phrases i where
  ok {ts depth x c} _ ended room read := by
    obtain ⟨t, rest, rfl⟩ := ended.exists_cons
    rw [step] at read
    cases judged : judge t with
    | error e =>
      rw [judged] at read
      cases read
    | ok y =>
      rw [judged] at read
      cases read
      obtain ⟨other, phrase⟩ := passed t x judged
      -- what comes after the token is not looked at
      refine ⟨ended.tail other, room, [t], rfl, phrase depth room, fun _ rest' _ _ => ?_⟩
      have again := step t rest' depth
      rwa [judged] at again
  error {ts depth e} _ ended room read := by
    obtain ⟨t, rest, rfl⟩ := ended.exists_cons
    rw [step] at read
    cases judged : judge t with
    | ok y =>
      rw [judged] at read
      cases read
    | error e₁ =>
      rw [judged] at read
      cases read
      obtain ⟨column, shallow⟩ := refused t e judged
      refine .here ((if_neg shallow).mpr column) (live.begins room) fun _ ts' => ⟨e, ?_⟩
      rw [step, judged]
      rfl

/-- A token that has to be the next one. -/
lemma expect {kind : TokenKind} {cause : SyntaxError.Cause} (inner : kind ≠ .endOfText)
    (shallow : cause ≠ .tooDeep) :
    Foresees size (fun _ c => Cursor.expect c kind cause) (.single kind) i := by
  refine token (fun t => if t.kind = kind then .ok t else .error ⟨t.column, cause⟩) ?_ ?_ ?_
    (live_single kind)
  · intro t rest depth
    by_cases h : t.kind = kind
    · rw [if_pos h, expect_of_mem ⟨t, List.mem_singleton.mpr h⟩ rest depth inner]
      rfl
    · have other : t.kind ∉ [kind] := fun mem => h (List.mem_singleton.mp mem)
      simp only [Cursor.expect, accept?_of_not_mem other, if_neg h]
      rfl
  · intro t x
    split
    · next h => exact fun _ => ⟨h ▸ inner, fun _ _ => ⟨rfl, t, h, rfl⟩⟩
    · rintro ⟨⟩
  · intro t e
    split
    · rintro ⟨⟩
    · rintro ⟨⟩
      exact ⟨rfl, shallow⟩

/-- A reader that puts the depth back. -/
lemma restoring (h : Foresees size family phrases i) :
    Foresees size (fun i => Grammar.restoring (family i))
      (fun d ts d' => d' = d ∧ ∃ inner, phrases d ts inner) i := by
  constructor
  · intro ts depth x c short ended room read
    obtain ⟨⟨y, c₁⟩, first, second⟩ := bind_eq_ok.mp read
    cases second
    exact (h.ok short ended room first).restoring room
  · intro ts depth e short ended room read
    cases first : family i ⟨ts, depth⟩ with
    | ok p =>
      simp only [Grammar.restoring, first] at read
      cases read
    | error e₁ =>
      simp only [Grammar.restoring, first] at read
      cases read
      exact (h.error short ended room first).restoring room

/-- What is ahead is bound enough for a repetition. -/
lemma bounded (repeated : ι → List Token → Reader α)
    (h : ∀ bound, Foresees (fun p : ι × List Token => min (size p.1) p.2.length)
      (fun p => repeated p.1 p.2) phrases (i, bound)) :
    Foresees size (fun i c => repeated i c.rest c) phrases i where
  ok {ts depth x c} short ended room read := by
    obtain ⟨ended', room', used, split, phrase, again⟩ :=
      (h ts).ok (Nat.le_min.mpr ⟨short, Nat.le_refl _⟩) ended room read
    exact ⟨ended', room', used, split, phrase, fun j rest short follows =>
      again (j, used ++ rest) rest (Nat.le_min.mpr ⟨short, Nat.le_refl _⟩) follows⟩
  error {ts depth e} short ended room read := by
    obtain ⟨good, t, ahead, split, blames, begins, again⟩ :=
      (h ts).error (Nat.le_min.mpr ⟨short, Nat.le_refl _⟩) ended room read
    exact ⟨good, t, ahead, split, blames, begins, fun j ahead' short =>
      again (j, good ++ t :: ahead') ahead' (Nat.le_min.mpr ⟨short, Nat.le_refl _⟩)⟩

/-- The bound of a repetition that has a token left, and the bound of what is left of it. -/
lemma min_le_tail (p : ι × List Token) :
    min (size p.1) p.2.length ≤ min (size p.1) p.2.tail.length + 1 := by
  rw [List.length_tail]
  omega

/-- A repetition, if one round of it passes a token before the next one. -/
lemma repetition (repeated : ι → List Token → β → Reader α)
    {body : ι → List Token → β → Reader α}
    (unfold : ∀ i t bound x, repeated i (t :: bound) x = body i bound x)
    (round : ∀ bound,
      (∀ x, Foresees (fun p : ι × List Token => min (size p.1) p.2.tail.length)
        (fun p => repeated p.1 p.2.tail x) phrases (i, bound)) →
      ∀ x, Foresees (fun p : ι × List Token => min (size p.1) p.2.length)
        (fun p => body p.1 p.2.tail x) phrases (i, bound)) (x : β) :
    Foresees size (fun i c => repeated i c.rest x c) phrases i := by
  refine bounded (fun i bound => repeated i bound x) fun bound => ?_
  induction bound generalizing x with
  | nil => exact of_size_eq_zero (Nat.min_zero _)
  | cons t bound ih =>
    have rest := fun x => (ih x).reindex (fun p : ι × List Token => (p.1, p.2.tail))
      (k := (i, t :: bound)) fun _ => Nat.le_refl _
    refine (round (t :: bound) rest x).congr ?_
    rintro ⟨j, bound'⟩ positive
    cases bound' with
    | nil => exact absurd positive (Nat.not_lt.mpr (Nat.min_le_right _ _))
    | cons u bound' => exact unfold j u bound' x

end Foresees

end Linework.Grammar
