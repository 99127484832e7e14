import Linework.Proofs.Columns
import Linework.Proofs.Tiling

/-!
# Legible trees

Scanning makes four sorts of tokens (`Scanned`): operators, which their characters determine, names,
numbers and strings. In the tree of a compiled text every name and operator is one of them, so that
the tree is `Legible` as soon as its literals are plain (`legible_compile`).
-/

namespace Linework

namespace Token
open Text

/-- The operator with these characters. -/
def sign? : List Char → Option TokenKind
  | [c] => lone? c
  | [c, d] => double? c d
  | _ => none

/-- An operator, which its characters determine. -/
structure IsSign (t : Token) : Prop where
  literal : t.literal = none
  lexeme : sign? t.lexeme.toList = some t.kind

/-- A name. Lone `=`, `&` and `|` may stand in it. -/
structure IsName (t : Token) : Prop where
  kind : t.kind = .identifier
  literal : t.literal = none
  chars : ∀ c ∈ t.lexeme.toList, isBlank c = false ∧ lone? c = none ∧ c ≠ '"'
  first : ∃ c ∈ t.lexeme.toList.head?, beginsNumber c = false

/-- What scanning makes: an operator, a name, a number or a string. -/
inductive Scanned (t : Token) : Prop where
  | sign (sign : t.IsSign)
  | name (name : t.IsName)
  | number (kind : t.kind = .number) {x : Float} (literal : t.literal = some (.number x))
  | text (kind : t.kind = .stringLiteral) {s : String} (literal : t.literal = some (.text s))

/-- The kinds of tokens that are no operators. -/
def wordKinds : List TokenKind := [.identifier, .number, .stringLiteral]

/-- A sign is no word. -/
lemma kind_of_sign? {word : List Char} {kind : TokenKind} (h : sign? word = some kind) :
    kind ∉ wordKinds := by
  revert h
  fun_cases sign? word with
  | case1 c =>
    fun_cases lone? c with
    | case4 =>
      fun_cases single? c with
      | case12 => rintro ⟨⟩
      | _ => rintro ⟨⟩; decide
    | _ => rintro ⟨⟩; decide
  | case2 c d =>
    fun_cases double? c d with
    | case7 => rintro ⟨⟩
    | _ => rintro ⟨⟩; decide
  | case3 => rintro ⟨⟩

/-- No character of an operand would be an operator of its own. -/
lemma Unbroken.chars {word rest : List Char} (h : Unbroken word rest) :
    ∀ c ∈ word, lone? c = none ∧ c ≠ '"' := by
  induction word with
  | nil => exact List.forall_mem_nil _
  | cons c word ih =>
    obtain ⟨goes, h⟩ := unbroken_cons.mp h
    refine List.forall_mem_cons.mpr ⟨?_, ih h⟩
    obtain ⟨noOperator, noQuote⟩ : operator? (c :: (word ++ rest)) = none ∧ c ≠ '"' := by
      simpa [endsOperand] using goes
    rw [operator?_cons, operatorAt, Option.orElse_eq_orElse, Option.orElse_eq_or,
      Option.or_eq_none_iff] at noOperator
    exact ⟨Option.map_eq_none_iff.mp noOperator.2, noQuote⟩

/-- An operand is a number with its value, or a name. -/
lemma operand_cases {word : List Char} {kind : TokenKind} {n : Nat} {literal : Option Value}
    (h : operand word = .token kind n literal) :
    (kind = .number ∧ ∃ x, literal = some (.number x)) ∨
      kind = .identifier ∧ literal = none ∧ word.head?.any beginsNumber = false := by
  rw [operand] at h
  split at h
  · cases h
  · split at h
    · split at h
      · next x _ =>
        cases h
        exact .inl ⟨rfl, x, rfl⟩
      · cases h
    · next other =>
      cases h
      exact .inr ⟨rfl, rfl, Bool.not_eq_true _ ▸ other⟩

/-- What is read is a token of a text. -/
lemma Reads.scanned {word rest : List Char} {kind : TokenKind} {literal : Option Value}
    (h : Reads word rest kind literal) (column : Nat) :
    Scanned ⟨kind, String.ofList word, literal, column⟩ := by
  cases h with
  | single one => exact .sign ⟨rfl, by rwa [String.toList_ofList]⟩
  | double two => exact .sign ⟨rfl, by rwa [String.toList_ofList]⟩
  | string => exact .text rfl rfl
  | operand nonempty unbroken _ read =>
    obtain ⟨rfl, x, rfl⟩ | ⟨rfl, rfl, first⟩ := operand_cases read
    · exact .number rfl rfl
    · obtain ⟨c, word, rfl⟩ := List.exists_cons_of_ne_nil nonempty
      refine .name ⟨rfl, rfl, fun d mem => ?_, c, by rw [String.toList_ofList]; rfl, first⟩
      rw [String.toList_ofList] at mem
      exact ⟨(operand_eq_token read).1 d mem, unbroken.chars d mem⟩

/-- So are all tokens that are read. -/
lemma Passes.scanned {rest cs : List Char} {k : Nat} {ts : List Token} (h : Passes rest k cs ts) :
    ∀ t ∈ ts, t.Scanned := by
  induction h with
  | done => exact List.forall_mem_nil _
  | token _ reads _ ih => exact List.forall_mem_cons.mpr ⟨reads.scanned _, ih⟩

/-- All tokens before the end of the text are of the four sorts. -/
lemma scanned_of_scan {text : List Char} {tokens : List Token} (h : scan text = .ok tokens) :
    ∀ t ∈ Grammar.text tokens, t.Scanned := by
  obtain ⟨ts, passes, scanned⟩ | ⟨_, _, _, _, _, -, -, -, scanned⟩ := scan_cases text
  · obtain rfl := Except.ok.inj (h.symm.trans scanned)
    intro t mem
    rw [Grammar.text] at mem
    have inner := List.mem_takeWhile_imp mem
    obtain mem | last := List.mem_append.mp ((List.takeWhile_prefix _).subset mem)
    · exact passes.scanned t mem
    · rw [List.mem_singleton.mp last] at inner
      exact absurd rfl (of_decide_eq_true inner)
  · rw [scanned] at h
    cases h

variable {t t' : Token}

/-- A token that is no word is a sign. -/
lemma Scanned.isSign (h : t.Scanned) (other : t.kind ∉ wordKinds) : t.IsSign := by
  cases h with
  | sign h => exact h
  | name h => exact absurd h.kind fun kind => other (kind ▸ by decide)
  | number kind => exact absurd (kind ▸ by decide) other
  | text kind => exact absurd (kind ▸ by decide) other

/-- An identifier is a name. -/
lemma Scanned.isName (h : t.Scanned) (kind : t.kind = .identifier) : t.IsName := by
  cases h with
  | sign h => exact absurd (kind ▸ by decide) (kind_of_sign? h.lexeme)
  | name h => exact h
  | number number => cases kind.symm.trans number
  | text text => cases kind.symm.trans text

/-- Names are the same up to columns if they have the same characters. -/
lemma IsName.placeless_eq (h : t.IsName) (h' : t'.IsName) (same : t.lexeme = t'.lexeme) :
    t.placeless = t'.placeless := by
  simp only [placeless, h.kind, h'.kind, h.literal, h'.literal, same]

/-- The characters of a sign say all but its column. -/
lemma IsSign.placeless_eq (h : t.IsSign) (h' : t'.IsSign) (same : t.lexeme = t'.lexeme) :
    t.placeless = t'.placeless := by
  have kinds : t.kind = t'.kind := Option.some.inj (by rw [← h.lexeme, ← h'.lexeme, same])
  simp only [placeless, kinds, h.literal, h'.literal, same]

/-- A sign has neither blanks nor the length of a word. -/
lemma IsSign.short (h : t.IsSign) : ' ' ∉ t.lexeme.toList ∧ t.lexeme.toList.length ≤ 2 := by
  have known := h.lexeme
  generalize t.lexeme.toList = word at known ⊢
  fun_cases sign? word with
  | case1 c =>
    refine ⟨fun mem => ?_, by simp⟩
    rw [← List.mem_singleton.mp mem, sign?, lone?_blank (by decide)] at known
    cases known
  | case2 c d =>
    refine ⟨fun mem => ?_, by simp⟩
    rw [sign?] at known
    obtain rfl | rfl : ' ' = c ∨ ' ' = d := by simpa using mem
    · rw [double?_after_blank (by decide)] at known
      cases known
    · rw [double?_before_blank (by decide)] at known
      cases known
  | case3 => simp_all [sign?]

end Token

/-- A text without quotes, a finite number or what is neither text nor number. -/
def Value.Plain : Value → Prop
  | .text s => '"' ∉ s.toList
  | .number x => x.isFinite = true
  | _ => True

instance : DecidablePred Value.Plain
  | .text s => inferInstanceAs (Decidable ('"' ∉ s.toList))
  | .number x => inferInstanceAs (Decidable (x.isFinite = true))
  | .undefined | .null | .bool _ | .object _ => .isTrue trivial

/-- A literal that its printed form shows in full: a text without quotes or a finite number. -/
inductive Value.Legible : Value → Prop where
  | text {s : String} (noQuote : '"' ∉ s.toList) : Legible (.text s)
  | number {x : Float} (finite : x.isFinite = true) : Legible (.number x)

/-- The value of a number or of a text without quotes is legible. -/
lemma Token.Scanned.legible {t : Token} (h : t.Scanned)
    (kind : t.kind ∈ [.number, .stringLiteral]) (plain : (t.literal.getD .undefined).Plain) :
    (t.literal.getD .undefined).Legible := by
  cases h with
  | sign h => exact absurd (List.mem_cons_of_mem _ kind) (Token.kind_of_sign? h.lexeme)
  | name h =>
    rw [h.kind] at kind
    exact absurd kind (by decide)
  | number _ literal =>
    rw [literal] at plain ⊢
    exact .number plain
  | text _ literal =>
    rw [literal] at plain ⊢
    exact .text plain

namespace Expr

mutual

/-- The literals of an expression. -/
@[simp] def literals : Expr → List Value
  | .literal v => [v]
  | .ref _ => []
  | .group inner => inner.literals
  | .unary _ right => right.literals
  | .binary left _ right => left.literals ++ right.literals
  | .call _ arguments => literalsAll arguments
  | .range low high _ => low.literals ++ high.literals
  | .logic first rest => first.literals ++ literalsLogic rest
termination_by structural e => e

/-- The values that are written in expressions. -/
@[simp] def literalsAll : List Expr → List Value
  | [] => []
  | e :: es => e.literals ++ literalsAll es
termination_by structural es => es

/-- The values that are written in the rest of a chain of conditions. -/
@[simp] def literalsLogic : List (Token × Expr) → List Value
  | [] => []
  | (_, e) :: rest => e.literals ++ literalsLogic rest
termination_by structural es => es

end

mutual

/-- A tree whose names are names, whose operators are operators and whose literals are shown in
full. -/
@[simp] def Legible : Expr → Prop
  | .literal v => v.Legible
  | .ref name => name.IsName
  | .group inner => inner.Legible
  | .unary op right => op.IsSign ∧ right.Legible
  | .binary left op right => left.Legible ∧ op.IsSign ∧ right.Legible
  | .call callee arguments => callee.IsName ∧ LegibleAll arguments
  | .range low high _ => low.Legible ∧ high.Legible
  | .logic first rest => first.Legible ∧ LegibleLogic rest
termination_by structural e => e

/-- All parts of expressions are legible. -/
@[simp] def LegibleAll : List Expr → Prop
  | [] => True
  | e :: es => e.Legible ∧ LegibleAll es
termination_by structural es => es

/-- All parts of the rest of a chain of conditions are legible. -/
@[simp] def LegibleLogic : List (Token × Expr) → Prop
  | [] => True
  | (connective, e) :: rest => connective.IsSign ∧ e.Legible ∧ LegibleLogic rest
termination_by structural es => es

end

end Expr

namespace Grammar

/-- The literals of what a phrase stands for. -/
def Symbol.literals : (s : Symbol) → s.Meaning → List Value
  | .conditions, rest => Expr.literalsLogic rest
  | .operations _ _, rest => Expr.literalsLogic rest
  | .arguments, es => Expr.literalsAll es
  | .mode, _ => []
  | .logic, e => Expr.literals e
  | .binary _, e => Expr.literals e
  | .unary, e => Expr.literals e
  | .primary, e => Expr.literals e

/-- All parts of what a symbol stands for are legible. -/
def Symbol.Legible : (s : Symbol) → s.Meaning → Prop
  | .conditions, rest => Expr.LegibleLogic rest
  | .operations _ _, rest => Expr.LegibleLogic rest
  | .arguments, es => Expr.LegibleAll es
  | .mode, _ => True
  | .logic, e => Expr.Legible e
  | .binary _, e => Expr.Legible e
  | .unary, e => Expr.Legible e
  | .primary, e => Expr.Legible e

/-- Operators of one level have the values of their operands. -/
lemma literals_operate (left : Expr) (rest : List (Token × Expr)) :
    (operate left rest).literals = left.literals ++ Expr.literalsLogic rest := by
  induction rest generalizing left with
  | nil => exact (List.append_nil _).symm
  | cons operation rest ih => exact (ih _).trans (List.append_assoc _ _ _)

/-- Operators of one level are legible if their operands are. -/
lemma legible_operate {left : Expr} {rest : List (Token × Expr)} (legible : left.Legible)
    (legibleRest : Expr.LegibleLogic rest) : (operate left rest).Legible := by
  induction rest generalizing left with
  | nil => exact legible
  | cons operation rest ih =>
    obtain ⟨sign, right, rest⟩ := legibleRest
    exact ih ⟨legible, sign, right⟩ rest

/-- The tree of scanned tokens is legible if its literals are plain. -/
lemma Derivation.legible_tree {s} (d : Derivation s) (proper : s.Proper)
    (scanned : ∀ t ∈ d.yield, t.Scanned) (plain : ∀ v ∈ s.literals d.tree, v.Plain) :
    s.Legible d.tree := by
  -- a token that is no word is a sign
  have sign {kinds : List TokenKind} (t : TokenOf kinds) (scanned : t.1.Scanned)
      (others : ∀ kind ∈ kinds, kind ∉ Token.wordKinds) : t.1.IsSign :=
    scanned.isSign (others _ t.2)
  have name (t : TokenOf [.identifier]) (scanned : t.1.Scanned) : t.1.IsName :=
    scanned.isName (List.mem_singleton.mp t.2)
  induction d with
  | logic first rest ihFirst ihRest =>
    simp only [yield, List.forall_mem_append] at scanned
    cases rest with
    | noCondition => exact ihFirst List.suffix_rfl scanned.1 plain
    | condition =>
      obtain ⟨plain, plainRest⟩ := List.forall_mem_append.mp plain
      exact ⟨ihFirst List.suffix_rfl scanned.1 plain, ihRest trivial scanned.2 plainRest⟩
  | condition connective e rest ihE ihRest =>
    simp only [yield, List.forall_mem_cons, List.forall_mem_append] at scanned
    obtain ⟨plain, plainRest⟩ := List.forall_mem_append.mp plain
    exact ⟨sign connective scanned.1 (by decide), ihE List.suffix_rfl scanned.2.1 plain,
      ihRest trivial scanned.2.2 plainRest⟩
  | operand e ih => exact ih trivial scanned plain
  | @level op ops first rest ihFirst ihRest =>
    simp only [yield, List.forall_mem_append] at scanned
    simp only [Symbol.literals, tree, literals_operate, List.forall_mem_append] at plain
    exact legible_operate (ihFirst ((List.suffix_cons op ops).trans proper) scanned.1 plain.1)
      (ihRest proper scanned.2 plain.2)
  | @operation op ops operator e rest ihE ihRest =>
    simp only [yield, List.forall_mem_cons, List.forall_mem_append] at scanned
    obtain ⟨plain, plainRest⟩ := List.forall_mem_append.mp plain
    refine ⟨sign operator scanned.1 ?_, ihE ((List.suffix_cons op ops).trans proper) scanned.2.1
      plain, ihRest proper scanned.2.2 plainRest⟩
    have others : ∀ kind ∈ Expr.levels, kind ∉ Token.wordKinds := by decide
    exact fun kind mem => others kind (List.mem_singleton.mp mem ▸ proper.subset List.mem_cons_self)
  | sign operator e ih =>
    simp only [yield, List.forall_mem_cons] at scanned
    exact ⟨sign operator scanned.1 (by decide), ih trivial scanned.2 plain⟩
  | unsigned e ih => exact ih trivial scanned plain
  | literal t =>
    exact (scanned _ List.mem_cons_self).legible t.2 (plain _ List.mem_cons_self)
  | name t => exact name t (scanned _ List.mem_cons_self)
  | emptyCall callee => exact ⟨name callee (scanned _ List.mem_cons_self), trivial⟩
  | call callee l first rest r ihFirst ihRest =>
    simp only [yield, List.forall_mem_cons, List.forall_mem_append] at scanned
    obtain ⟨plain, plainRest⟩ := List.forall_mem_append.mp plain
    exact ⟨name callee scanned.1, ihFirst trivial scanned.2.2.1 plain,
      ihRest trivial scanned.2.2.2.1 plainRest⟩
  | group l inner r ih =>
    simp only [yield, List.forall_mem_cons, List.forall_mem_append] at scanned
    exact ih trivial scanned.2.1 plain
  | range l low colon high mode r ihLow ihHigh ihMode =>
    simp only [yield, List.forall_mem_cons, List.forall_mem_append] at scanned
    obtain ⟨plain, plainHigh⟩ := List.forall_mem_append.mp plain
    exact ⟨ihLow trivial scanned.2.1 plain, ihHigh trivial scanned.2.2.2.1 plainHigh⟩
  | argument comma e rest ihE ihRest =>
    simp only [yield, List.forall_mem_cons, List.forall_mem_append] at scanned
    obtain ⟨plain, plainRest⟩ := List.forall_mem_append.mp plain
    exact ⟨ihE trivial scanned.2.1 plain, ihRest trivial scanned.2.2 plainRest⟩
  | noCondition | noOperation | noArgument | noMode | flag => trivial

end Grammar

/-- A text whose literals are plain is compiled to a legible tree. -/
lemma Formula.legible_compile {text : List Char} {e : Expr}
    (compiled : (Formula.compile text).compiled = .ok e) (plain : ∀ v ∈ e.literals, v.Plain) :
    e.Legible := by
  obtain ⟨tokens, scanned, parsed⟩ := Grammar.bind_eq_ok.mp compiled
  obtain ⟨d, yield, -, -, rfl⟩ := Grammar.parse_eq_ok.mp parsed
  exact d.legible_tree trivial (yield ▸ Token.scanned_of_scan scanned) plain

end Linework
