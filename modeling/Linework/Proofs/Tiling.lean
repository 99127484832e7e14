import Linework.Proofs.Lexemes

/-!
# How tokens lie in their text

Scanning cuts a text into tokens with blanks between them (`Passes`), up to the end or up to the
first place where nothing can be read. The tokens cover all that is not blank, and they are found
again in every text that has the same words with other blanks between them.
-/

namespace Linework.Token

open Text

/-- The tokens of a text that is followed by `rest`. Its first character has the column `k`. -/
inductive Passes (rest : List Char) : Nat → List Char → List Token → Prop where
  | done {k : Nat} {gap : List Char} (blank : Blank gap) : Passes rest k gap []
  | token {k : Nat} {gap word cs : List Char} {kind : TokenKind} {literal : Option Value}
      {ts : List Token} (blank : Blank gap) (reads : Reads word (cs ++ rest) kind literal)
      (more : Passes rest (k + gap.length + word.length) cs ts) :
      Passes rest k (gap ++ word ++ cs)
        (⟨kind, String.ofList word, literal, k + gap.length⟩ :: ts)

/-- The token that ends a text of a given length. -/
def ending (length : Nat) : Token := ⟨.endOfText, "", none, length + 1⟩

/-- Characters that have been read already are skipped. -/
lemma scanFrom_skip (k : Nat) (word cs : List Char) :
    scanFrom k word.length (word ++ cs) = scanFrom (k + word.length) 0 cs := by
  induction word generalizing k with
  | nil => rfl
  | cons c word ih =>
    rw [List.cons_append, List.length_cons, scanFrom, ih, Nat.add_assoc, Nat.add_comm 1]

/-- Blanks are skipped. -/
lemma scanFrom_blank {gap : List Char} (blank : Blank gap) (k : Nat) (cs : List Char) :
    scanFrom k 0 (gap ++ cs) = scanFrom (k + gap.length) 0 cs := by
  induction gap generalizing k with
  | nil => rfl
  | cons c gap ih =>
    obtain ⟨first, blank⟩ := List.forall_mem_cons.mp blank
    rw [List.cons_append, scanFrom, readLexeme_blank first]
    dsimp only
    rw [ih blank, List.length_cons, Nat.add_assoc, Nat.add_comm 1]

/-- A lexeme is read as its token. -/
lemma scanFrom_reads {word rest : List Char} {kind : TokenKind} {literal : Option Value}
    (reads : Reads word rest kind literal) (k : Nat) :
    scanFrom k 0 (word ++ rest) = (scanFrom (k + word.length) 0 rest).map
      (⟨kind, String.ofList word, literal, k⟩ :: ·) := by
  obtain ⟨c, cs, rfl⟩ := List.exists_cons_of_ne_nil reads.ne_nil
  have taken : (c :: (cs ++ rest)).take (cs.length + 1) = c :: cs := by simp
  rw [List.cons_append, scanFrom, reads.readLexeme]
  dsimp only
  rw [Nat.add_sub_cancel, scanFrom_skip, taken, List.length_cons, Nat.add_assoc, Nat.add_comm 1]
  cases scanFrom (k + (cs.length + 1)) 0 rest <;> rfl

/-- Scanning goes on with what follows. -/
lemma Passes.scanFrom {rest cs : List Char} {k : Nat} {ts : List Token}
    (h : Passes rest k cs ts) :
    scanFrom k 0 (cs ++ rest) = (scanFrom (k + cs.length) 0 rest).map (ts ++ ·) := by
  induction h with
  | @done k gap blank =>
    rw [scanFrom_blank blank]
    cases Token.scanFrom (k + gap.length) 0 rest <;> rfl
  | @token k gap word cs kind literal ts blank reads _ ih =>
    rw [List.append_assoc, List.append_assoc, scanFrom_blank blank, scanFrom_reads reads, ih,
      List.length_append, List.length_append, ← Nat.add_assoc, ← Nat.add_assoc]
    cases Token.scanFrom (k + gap.length + word.length + cs.length) 0 rest <;> rfl

/-- One more blank before the tokens. -/
lemma Passes.cons_blank {rest cs : List Char} {k : Nat} {ts : List Token} {c : Char}
    (first : isBlank c = true) (h : Passes rest (k + 1) cs ts) : Passes rest k (c :: cs) ts := by
  cases h with
  | done blank => exact .done (List.forall_mem_cons.mpr ⟨first, blank⟩)
  | @token _ gap word cs kind literal ts blank reads more =>
    have column : k + 1 + gap.length = k + (c :: gap).length := by
      rw [List.length_cons, Nat.add_assoc, Nat.add_comm 1]
    rw [column] at more ⊢
    exact .token (List.forall_mem_cons.mpr ⟨first, blank⟩) reads more

/-- A place where scanning stops: the end of the text, or a character at which nothing is read. -/
inductive Stops : List Char → Prop where
  | finish : Stops []
  | fault {c : Char} {cs : List Char} {cause : SyntaxError.Cause}
      (fault : readLexeme c cs = .fault cause) : Stops (c :: cs)

/-- Every text has tokens up to some place. -/
lemma exists_passes (k : Nat) (text : List Char) :
    ∃ cs rest ts, text = cs ++ rest ∧ Passes rest k cs ts ∧ Stops rest := by
  induction n : text.length using Nat.strong_induction_on generalizing k text with
  | h n ih =>
    subst n
    cases text with
    | nil => exact ⟨[], [], [], rfl, .done (List.forall_mem_nil _), .finish⟩
    | cons c cs =>
      cases read : readLexeme c cs with
      | blank =>
        obtain ⟨cs, rest, ts, rfl, passes, stops⟩ := ih cs.length (by simp) (k + 1) cs rfl
        exact ⟨c :: cs, rest, ts, rfl, passes.cons_blank (isBlank_of_readLexeme read), stops⟩
      | token kind length literal =>
        obtain ⟨word, after, split, -, reads⟩ := exists_reads read
        have shorter : after.length < (c :: cs).length := by
          rw [split, List.length_append]
          exact Nat.lt_add_of_pos_left (List.length_pos_of_ne_nil reads.ne_nil)
        obtain ⟨cs, rest, ts, rfl, passes, stops⟩ :=
          ih after.length shorter (k + word.length) after rfl
        exact ⟨word ++ cs, rest, _, by rw [split, List.append_assoc],
          .token (List.forall_mem_nil _) reads passes, stops⟩
      | fault cause => exact ⟨[], c :: cs, [], rfl, .done (List.forall_mem_nil _), .fault read⟩

/-- Scanning finds all tokens of a text and its end, or those before a character at which nothing
can be read. -/
lemma scan_cases (text : List Char) :
    (∃ ts, Passes [] 1 text ts ∧ scan text = .ok (ts ++ [ending text.length])) ∨
      ∃ cs c rest ts cause, text = cs ++ c :: rest ∧ Passes (c :: rest) 1 cs ts ∧
        isBlank c = false ∧ scan text = .error ⟨cs.length + 1, cause⟩ := by
  obtain ⟨cs, rest, ts, rfl, passes, stops⟩ := exists_passes 1 text
  have scanned := passes.scanFrom
  rw [Nat.add_comm] at scanned
  cases stops with
  | finish =>
    left
    rw [List.append_nil] at scanned ⊢
    exact ⟨ts, passes, scanned⟩
  | @fault c rest cause fault =>
    right
    have solid : isBlank c = false := by
      rw [← Bool.not_eq_true]
      intro blank
      rw [readLexeme_blank blank] at fault
      cases fault
    refine ⟨cs, c, rest, ts, cause, rfl, passes, solid, scanned.trans ?_⟩
    rw [Token.scanFrom, fault]
    rfl

namespace Passes

variable {rest cs : List Char} {k : Nat} {ts : List Token}

/-- No operand follows in a text that ends an operand before it. -/
lemma others (h : Passes rest k cs ts) (gap : Blank (operandRun (cs ++ rest))) :
    ∀ t ∈ ts.head?, t.kind.isOperand = false := by
  cases h with
  | done => exact fun _ => nofun
  | @token _ before word cs kind literal ts blank reads more =>
    rintro _ ⟨⟩
    rw [← Bool.not_eq_true]
    intro operand
    obtain ⟨c, word, rfl⟩ := List.exists_cons_of_ne_nil reads.ne_nil
    have run : operandRun (before ++ (c :: word) ++ cs ++ rest) =
        before ++ c :: operandRun (word ++ (cs ++ rest)) := by
      rw [List.append_assoc, List.append_assoc, unbroken_blank blank]
      exact congrArg _ (operandRun_cons (reads.goes_on operand))
    have first : isBlank c = true := gap c (run ▸ by simp)
    rw [reads.first c rfl] at first
    cases first

/-- A text ends an operand before it if no operand follows in it. -/
lemma gap (h : Passes rest k cs ts) (others : ∀ t ∈ ts.head?, t.kind.isOperand = false) :
    Blank (operandRun cs) := by
  cases h with
  | done blank => exact fun c mem => blank c ((operandRun_initial cs).subset mem)
  | @token _ before word cs kind literal ts blank reads more =>
    rw [List.append_assoc, unbroken_blank blank, operandRun_of_ends (reads.ends (others _ rfl) cs),
      List.append_nil]
    exact blank

/-- The tokens before a place are there without what follows, too. -/
lemma alone (h : Passes rest k cs ts) : Passes [] k cs ts := by
  induction h with
  | done blank => exact .done blank
  | @token _ before word cs kind literal ts blank reads more ih =>
    refine .token blank (reads.before ?_ fun operand => ?_) ih
    · cases cs with
      | nil => exact .inr (fun _ => nofun)
      | cons c cs => exact .inl rfl
    · rw [List.append_nil]
      exact ih.gap (more.others (reads.gap operand))

end Passes

/-- Whether a token stands at a column. -/
def Covers (t : Token) (column : Nat) : Prop :=
  t.column ≤ column ∧ column < t.column + t.lexeme.length

/-- The tokens cover a text whose first character has the column `k`, in their order and without
overlaps, up to blanks. Of two neighbours, one at most is an operand. -/
structure Tiles (k : Nat) (text : List Char) (ts : List Token) : Prop where
  kinds : ∀ t ∈ ts, t.kind ≠ .endOfText
  lexemes : ∀ t ∈ ts, t.lexeme ≠ "" ∧ ∃ before after,
    text = before ++ t.lexeme.toList ++ after ∧ t.column = k + before.length
  ordered : ts.Pairwise fun s t => s.column + s.lexeme.length ≤ t.column
  blanks : ∀ i c, text[i]? = some c → (∀ t ∈ ts, ¬ t.Covers (k + i)) → isBlank c = true
  alternate : ts.IsChain fun s t => ¬ (s.kind.isOperand ∧ t.kind.isOperand)

/-- No token is before the text. -/
lemma Tiles.le_column {k : Nat} {text : List Char} {ts : List Token} (h : Tiles k text ts) :
    ∀ t ∈ ts, k ≤ t.column := by
  intro t mem
  obtain ⟨-, before, after, -, column⟩ := h.lexemes t mem
  rw [column]
  exact Nat.le_add_right _ _

/-- A token and the blanks before it, with what is tiled after them. -/
lemma Tiles.cons {k : Nat} {gap word cs rest : List Char} {kind : TokenKind}
    {literal : Option Value} {ts : List Token} (blank : Blank gap)
    (reads : Reads word (cs ++ rest) kind literal)
    (others : kind.isOperand = true → ∀ t ∈ ts.head?, t.kind.isOperand = false)
    (h : Tiles (k + gap.length + word.length) cs ts) :
    Tiles k (gap ++ word ++ cs) (⟨kind, String.ofList word, literal, k + gap.length⟩ :: ts) where
  kinds := List.forall_mem_cons.mpr ⟨reads.kind_ne, h.kinds⟩
  lexemes := by
    refine List.forall_mem_cons.mpr ⟨⟨?_, gap, cs, by simp, rfl⟩, fun t mem => ?_⟩
    · simpa using reads.ne_nil
    · obtain ⟨nonempty, before, after, rfl, column⟩ := h.lexemes t mem
      refine ⟨nonempty, gap ++ word ++ before, after, by simp, ?_⟩
      rw [column, List.length_append, List.length_append]
      omega
  ordered := by
    refine List.pairwise_cons.mpr ⟨fun t mem => ?_, h.ordered⟩
    rw [String.length_ofList]
    exact h.le_column t mem
  blanks := by
    intro i c found free
    obtain ⟨here, free⟩ := List.forall_mem_cons.mp free
    -- a place that no token covers is in the gap or behind the word
    have outside : ¬ (k + gap.length ≤ k + i ∧ k + i < k + gap.length + word.length) := by
      rwa [Covers, String.length_ofList] at here
    by_cases early : i < gap.length
    · rw [List.append_assoc, List.getElem?_append_left early] at found
      exact blank c (List.mem_of_getElem? found)
    · have late : (gap ++ word).length ≤ i := by
        rw [List.length_append]
        omega
      rw [List.getElem?_append_right late] at found
      refine h.blanks _ c found fun t mem => ?_
      have column : k + gap.length + word.length + (i - (gap ++ word).length) = k + i := by
        rw [List.length_append] at late ⊢
        omega
      rw [column]
      exact free t mem
  alternate := by
    cases ts with
    | nil => exact .singleton _
    | cons t ts =>
      refine List.isChain_cons_cons.mpr ⟨fun both => ?_, h.alternate⟩
      have other := others both.1 t rfl
      rw [both.2] at other
      cases other

/-- The tokens that are read tile the text. -/
lemma Passes.tiles {rest cs : List Char} {k : Nat} {ts : List Token} (h : Passes rest k cs ts) :
    Tiles k cs ts := by
  induction h with
  | @done k gap blank =>
    refine ⟨List.forall_mem_nil _, List.forall_mem_nil _, .nil, ?_, .nil⟩
    exact fun i c found _ => blank c (List.mem_of_getElem? found)
  | token blank reads more ih =>
    exact ih.cons blank reads fun operand => more.others (reads.gap operand)

/-- The tokens of a text are followed by the only end of the text, behind its last character, and
cover the text up to blanks. If the text cannot be scanned, then for the sake of a character that is
not blank, before which everything can. -/
theorem scan_tiles (text : List Char) :
    (∀ tokens, scan text = .ok tokens →
      ∃ ts, tokens = ts ++ [⟨.endOfText, "", none, text.length + 1⟩] ∧ Tiles 1 text ts) ∧
    ∀ e, scan text = .error e →
      1 ≤ e.column ∧ e.column ≤ text.length ∧
      (∃ c, text[e.column - 1]? = some c ∧ isBlank c = false) ∧
      ∃ tokens, scan (text.take (e.column - 1)) = .ok tokens := by
  obtain ⟨ts, passes, scanned⟩ | ⟨cs, c, rest, ts, cause, rfl, passes, solid, scanned⟩ :=
    scan_cases text
  · rw [scanned]
    refine ⟨?_, nofun⟩
    rintro _ ⟨⟩
    exact ⟨ts, rfl, passes.tiles⟩
  · rw [scanned]
    refine ⟨nofun, ?_⟩
    rintro _ ⟨⟩
    refine ⟨by simp, by simp, ⟨c, by simp, solid⟩, ?_⟩
    have before : (cs ++ c :: rest).take (cs.length + 1 - 1) = cs := by simp
    have alone := passes.alone.scanFrom
    rw [List.append_nil] at alone
    rw [before]
    exact ⟨_, alone⟩

/-- Words that would be others without the blank between them, or with one between the `&`. -/
def dense : List Char := "a= ==&&\"b &\"|c".toList

/-- An operand with a blank inside after an operator. -/
def crowd : List Char := "a +b c".toList

/-- Tokens without blanks between them, and a place where there is none. -/
theorem scan_tiles_crowd :
    (∃ tokens, scan dense = .ok tokens ∧
      ∃ ts, tokens = ts ++ [⟨.endOfText, "", none, 15⟩] ∧ Tiles 1 dense ts) ∧
    ∃ e, scan crowd = .error e ∧ e.column = 4 ∧
      (∃ c, crowd[3]? = some c ∧ isBlank c = false) ∧
      ∃ tokens, scan (crowd.take 3) = .ok tokens := by
  have read : (scan dense).toOption.isSome := by decide +kernel
  have length : dense.length = 14 := by decide +kernel
  have failed : (scan crowd).map (fun _ => ()) = .error ⟨4, .unexpectedOperand "b c"⟩ := by
    decide +kernel
  constructor
  · cases scanned : scan dense with
    | error e =>
      rw [scanned] at read
      cases read
    | ok tokens =>
      obtain ⟨ts, rfl, tiles⟩ := (scan_tiles dense).1 tokens scanned
      rw [length]
      exact ⟨_, rfl, ts, rfl, tiles⟩
  · cases scanned : scan crowd with
    | ok tokens =>
      rw [scanned] at failed
      cases failed
    | error e =>
      rw [scanned] at failed
      cases failed
      exact ⟨_, rfl, rfl, ((scan_tiles crowd).2 _ scanned).2.2⟩

/-- The words in their order, each followed by blanks, which only the last one may lack. -/
inductive Woven : List (List Char) → List Char → Prop where
  | nil : Woven [] []
  | cons {word gap rest : List Char} {words : List (List Char)} (blank : Blank gap)
      (apart : words ≠ [] → gap ≠ []) (more : Woven words rest) :
      Woven (word :: words) (word ++ gap ++ rest)

/-- A token without its place. -/
def content (t : Token) : TokenKind × String × Option Value := (t.kind, t.lexeme, t.literal)

/-- The words of some tokens, without the end of the text. -/
def words (tokens : List Token) : List (List Char) :=
  (tokens.filter (·.kind ≠ .endOfText)).map (·.lexeme.toList)

/-- Blanks keep apart what they stand between. -/
lemma Woven.apart {gap rest : List Char} {words : List (List Char)} (woven : Woven words rest)
    (blank : Blank gap) (apart : words ≠ [] → gap ≠ []) : Apart (gap ++ rest) := by
  cases gap with
  | nil =>
    cases woven with
    | nil => exact fun _ => nofun
    | cons => exact absurd rfl (apart (List.cons_ne_nil _ _))
  | cons c gap =>
    rintro _ ⟨⟩
    exact blank c List.mem_cons_self

/-- Tokens are found again with other blanks between them. -/
lemma Passes.respaced {cs left text : List Char} {k : Nat} {ts : List Token}
    (h : Passes [] k cs ts) (blank : Blank left) (woven : Woven (ts.map (·.lexeme.toList)) text)
    (k' : Nat) : ∃ ts', Passes [] k' (left ++ text) ts' ∧ ts'.map content = ts.map content := by
  induction h generalizing left text k' with
  | done =>
    cases woven
    exact ⟨[], .done (List.forall_mem_append.mpr ⟨blank, List.forall_mem_nil _⟩), rfl⟩
  | @token _ _ word cs kind literal ts _ reads more ih =>
    rw [List.map_cons, String.toList_ofList] at woven
    cases woven with
    | @cons _ gap rest _ blank' apart woven =>
      obtain ⟨ts', passes, same⟩ := ih blank' woven (k' + left.length + word.length)
      -- an operand is still followed by no operand, for the tokens after it have the old kinds
      have others (operand : kind.isOperand = true) :
          ∀ t ∈ ts'.head?, t.kind.isOperand = false := by
        intro t first
        have firsts : ts.head?.map content = some (content t) := by
          rw [← List.head?_map, ← same, List.head?_map, first]
          rfl
        obtain ⟨s, first', contents⟩ := Option.map_eq_some_iff.mp firsts
        have kinds : s.kind = t.kind := congrArg Prod.fst contents
        exact kinds ▸ more.others (reads.gap operand) s first'
      have reads' : Reads word (gap ++ rest ++ []) kind literal := by
        refine reads.before (.inr ?_) fun operand => ?_
        · rw [List.append_nil]
          exact woven.apart blank' apart
        · rw [List.append_nil]
          exact passes.gap (others operand)
      refine ⟨⟨kind, String.ofList word, literal, k' + left.length⟩ :: ts', ?_, ?_⟩
      · rw [List.append_assoc word, ← List.append_assoc left]
        exact .token blank reads' passes
      · rw [List.map_cons, List.map_cons, same]
        rfl

/-- The blanks between words do not matter: the same words with other blanks between them, and any
blanks around them, are the same tokens in other places. -/
theorem scan_respaced {text text' left : List Char} {tokens : List Token}
    (scanned : scan text = .ok tokens) (blank : Blank left) (woven : Woven (words tokens) text') :
    ∃ tokens', scan (left ++ text') = .ok tokens' ∧ tokens'.map content = tokens.map content := by
  obtain ⟨ts, passes, scanned'⟩ | ⟨cs, c, rest, ts, cause, rfl, passes, solid, scanned'⟩ :=
    scan_cases text
  · rw [scanned'] at scanned
    cases scanned
    have plain : words (ts ++ [ending text.length]) = ts.map (·.lexeme.toList) := by
      have kept : ts.filter (·.kind ≠ .endOfText) = ts := by
        simpa using passes.tiles.kinds
      rw [words, List.filter_append, kept]
      simp [ending]
    obtain ⟨ts', passes', same⟩ := passes.respaced blank (plain ▸ woven) 1
    have alone := passes'.scanFrom
    rw [List.append_nil] at alone
    refine ⟨_, alone, ?_⟩
    rw [List.map_append, List.map_append, same]
    rfl
  · rw [scanned'] at scanned
    cases scanned

/-- The words of `dense` with other blanks, one of them ideographic. -/
def loose : List Char := "a=\n==  && \"b &\"　|c ".toList

/-- The same words with more blanks are the same tokens. -/
theorem scan_respaced_loose :
    ∃ tokens, scan dense = .ok tokens ∧ Blank ['\t'] ∧ Woven (words tokens) loose ∧
      ∃ tokens', scan (['\t'] ++ loose) = .ok tokens' ∧
        tokens'.map (fun t => (t.kind, t.lexeme)) = [(.identifier, "a="), (.equalEqual, "=="),
          (.andAnd, "&&"), (.stringLiteral, "\"b &\""), (.identifier, "|c"), (.endOfText, "")] := by
  have found : (scan dense).toOption.map (fun tokens =>
      (words tokens, tokens.map fun t => (t.kind, t.lexeme))) =
      some (["a=".toList, "==".toList, "&&".toList, "\"b &\"".toList, "|c".toList],
        [(.identifier, "a="), (.equalEqual, "=="), (.andAnd, "&&"), (.stringLiteral, "\"b &\""),
          (.identifier, "|c"), (.endOfText, "")]) := by
    decide +kernel
  have blank : Blank ['\t'] := by decide
  have split : loose = "a=".toList ++ ['\n'] ++ ("==".toList ++ "  ".toList ++
      ("&&".toList ++ " ".toList ++ ("\"b &\"".toList ++ ['　'] ++
        ("|c".toList ++ " ".toList ++ [])))) := by decide +kernel
  cases scanned : scan dense with
  | error e =>
    rw [scanned] at found
    cases found
  | ok tokens =>
    rw [scanned] at found
    obtain ⟨same, told⟩ := Prod.mk.inj (Option.some.inj found)
    have woven : Woven (words tokens) loose := by
      rw [same, split]
      refine .cons (by decide) (by simp) (.cons (by decide) (by simp) ?_)
      refine .cons (by decide) (by simp) (.cons (by decide) (by simp) ?_)
      exact .cons (by decide) (by simp) .nil
    obtain ⟨tokens', scanned', contents⟩ := scan_respaced scanned blank woven
    refine ⟨tokens, rfl, blank, woven, tokens', scanned', ?_⟩
    have kinds := congrArg (List.map fun c => (c.1, c.2.1)) contents
    rw [List.map_map, List.map_map] at kinds
    exact kinds.trans told

end Linework.Token
