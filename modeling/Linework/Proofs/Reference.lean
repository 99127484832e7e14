import Linework.Proofs.Padding
import Linework.Proofs.Rendering
import Linework.Proofs.CompoundAssign
import Linework.Proofs.WholeWords

/-!
# Names can be referred to

The names that a script can declare are operands of expressions. So a variable gives back what it
was declared with: a script that declares a name and returns it has the value of the declared
expression.
-/

namespace Linework

open Text

/-! ### Names as operands -/

namespace Token

section

variable {c : Char}

/-- No operator of two characters begins with a character of names. -/
lemma double?_of_isNameChar (letter : Line.isNameChar c = true) (d : Char) :
    double? c d = none := by
  fun_cases double? c d with
  | case7 => rfl
  | _ => exact absurd (by decide) (not_mem_signs letter)

/-- No operator of one character is a character of names. -/
lemma lone?_of_isNameChar (letter : Line.isNameChar c = true) : lone? c = none := by
  fun_cases lone? c with
  | case4 =>
    fun_cases single? c with
    | case12 => rfl
    | _ => exact absurd (by decide) (not_mem_signs letter)
  | _ => exact absurd (by decide) (not_mem_signs letter)

/-- No operand ends within a name. -/
lemma endsOperand_of_isNameChar (letter : Line.isNameChar c = true) (cs : List Char) :
    endsOperand (c :: cs) = false := by
  have noQuote : c ≠ '"' := by
    rintro rfl
    exact absurd (by decide) (not_mem_signs letter)
  have two : cs.head?.bind (double? c) = none := by
    rw [Option.bind_eq_none_iff]
    exact fun d _ => double?_of_isNameChar letter d
  simp [endsOperand, operator?_cons, operatorAt, two, lone?_of_isNameChar letter, noQuote]

/-- Digits and the point. -/
lemma contains_of_beginsNumber (h : beginsNumber c = true) :
    Ranges.contains c.toNat [(0x2e, 0x2e), (0x30, 0x39)] = true := by
  rw [beginsNumber, Bool.or_eq_true, decide_eq_true_eq] at h
  obtain digit | rfl := h
  · simp only [Char.isDigit, Bool.and_eq_true, decide_eq_true_eq] at digit
    have low : 0x30 ≤ c.toNat := digit.1
    have high : c.toNat ≤ 0x39 := digit.2
    simp [Ranges.contains, high]
    omega
  · decide

/-- No letter begins a number. -/
lemma beginsNumber_of_isAlphabetic (letter : isAlphabetic c = true) : beginsNumber c = false := by
  rw [← Bool.not_eq_true]
  intro number
  have digits := contains_of_beginsNumber number
  have apart : alphabeticRanges.all (fun r => [(0x2e, 0x2e), (0x30, 0x39)].all fun r' =>
      r.2 < r'.1 || r'.2 < r.1) = true := by decide +kernel
  rw [not_contains_of_apart apart letter] at digits
  cases digits

end

variable {name : List Char}

/-- No operand ends within a name. -/
lemma unbroken_of_isName (h : Line.isName name = true) (rest : List Char) : Unbroken name rest := by
  have letters := isNameChar_of_isName h
  clear h
  induction name with
  | nil => rfl
  | cons c name ih =>
    obtain ⟨first, letters⟩ := List.forall_mem_cons.mp letters
    exact unbroken_cons.mpr ⟨endsOperand_of_isNameChar first _, ih letters⟩

/-- A name is read as an identifier. -/
lemma operand_of_isName (h : Line.isName name = true) :
    operand name = .token .identifier name.length none := by
  have solid : name.any isBlank = false := by
    rw [List.any_eq_false]
    intro c letter
    rw [isBlank_of_isNameChar (isNameChar_of_isName h c letter)]
    exact Bool.false_ne_true
  have first : name.head?.any beginsNumber = false := by
    cases name with
    | nil => rfl
    | cons c name =>
      rw [Line.isName, Bool.and_eq_true, Bool.or_eq_true, decide_eq_true_eq] at h
      obtain letter | rfl := h.1
      · exact beginsNumber_of_isAlphabetic letter
      · rfl
  rw [operand, solid, first]
  rfl

/-- A name has a first character. -/
lemma ne_nil_of_isName (h : Line.isName name = true) : name ≠ [] := by
  rintro rfl
  cases h

/-- A name is one identifier before everything that ends operands. -/
lemma scan_name_append (h : Line.isName name = true) {rest : List Char}
    (ends : operandRun rest = []) : scan (name ++ rest) = (scanFrom (1 + name.length) 0 rest).map
      (⟨.identifier, String.ofList name, none, 1⟩ :: ·) := by
  have gap : Blank (operandRun rest) := ends ▸ List.forall_mem_nil _
  have reads : Reads name rest .identifier none :=
    .operand (ne_nil_of_isName h) (unbroken_of_isName h rest) gap (operand_of_isName h)
  exact scanFrom_reads reads 1

end Token

namespace Grammar.Derivation

/-- A tree that is lifted through the levels of operators has the same tokens. -/
@[simp] lemma yield_lift (ops : List TokenKind) (e : Derivation .unary) :
    (lift ops e).yield = e.yield := by
  induction ops with
  | nil => rfl
  | cons op ops ih => simp [lift, ih]

/-- A tree that is lifted through the levels of operators is the same. -/
@[simp] lemma tree_lift (ops : List TokenKind) (e : Derivation .unary) :
    (lift ops e).tree = e.tree := by
  induction ops with
  | nil => rfl
  | cons op ops ih => exact ih

/-- Parsing reads a primary that stands alone. -/
lemma parse_alone (d : Derivation .primary) (room : d.demand ≤ Expr.nestingLimit) (known : d.Known)
    (column : Nat) : Expr.parse (d.yield ++ [⟨.endOfText, "", none, column⟩]) = .ok d.tree := by
  have ends : ∀ t ∈ [(⟨.endOfText, "", none, column⟩ : Token)].head?, t.kind = .endOfText := by
    rintro t ⟨⟩
    rfl
  refine parse_eq_ok.mpr ⟨.single (lift Expr.levels (.unsigned d)), ?_, ?_, ?_, ?_⟩
  · rw [text_append (d.not_endOfText trivial) ends]
    simp [single]
  · simpa [single] using room
  · simpa [single] using known
  · simp [single]

end Grammar.Derivation

namespace Formula

open Grammar (Derivation)

variable {name : List Char}

/-- A name alone is a variable. -/
lemma compile_name (h : Line.isName name = true) :
    (compile name).compiled = .ok (.ref ⟨.identifier, String.ofList name, none, 1⟩) := by
  have ends : Token.operandRun [] = [] := rfl
  have scanned := Token.scan_name_append h ends
  have parsed := Derivation.parse_alone
    (.name ⟨⟨.identifier, String.ofList name, none, 1⟩, by simp⟩) (by simp) (by simp)
    (1 + name.length)
  rw [List.append_nil] at scanned
  rw [compile, scanned]
  exact parsed

/-- A name before a pair of parentheses is a call. -/
lemma compile_call (h : Line.isName name = true) :
    (compile (name ++ ['(', ')'])).compiled =
      .ok (.call ⟨.identifier, String.ofList name, none, 1⟩ []) := by
  have ends : Token.operandRun ['(', ')'] = [] := rfl
  have parsed := Derivation.parse_alone
    (.emptyCall ⟨⟨.identifier, String.ofList name, none, 1⟩, by simp⟩
      ⟨⟨.leftParen, String.ofList ['('], none, 1 + name.length⟩, by simp⟩
      ⟨⟨.rightParen, String.ofList [')'], none, 1 + name.length + 1⟩, by simp⟩)
    (by simp [Expr.nestingLimit]) (by simp) (1 + name.length + 1 + 1)
  rw [compile, Token.scan_name_append h ends]
  exact parsed

end Formula

/-! ### Evaluating on two machines -/

/-- Machines of one scope that give expressions the same values. Their lines, their budgets and what
they have reported may differ. -/
structure Machine.Beside (s : Scope) (m m' : Machine) : Prop where
  scope : m.scope = s
  scope' : m'.scope = s
  random : m'.random = m.random
  console : m'.console = m.console
  clock : m'.clock = m.clock

/-- The line stays the same, and all new diagnostics are on it. -/
structure Machine.Reports (m n : Machine) : Prop where
  line : n.line = m.line
  diagnostics : ∀ d ∈ n.diagnostics, d ∈ m.diagnostics ∨ d.line = m.line

/-- Nothing is reported. -/
lemma Machine.Reports.of_eq {m n : Machine} (line : n.line = m.line)
    (diagnostics : n.diagnostics = m.diagnostics) : m.Reports n :=
  ⟨line, fun _ mem => .inl (diagnostics ▸ mem)⟩

/-- One report after another. -/
lemma Machine.Reports.trans {m n k : Machine} (h : m.Reports n) (h' : n.Reports k) :
    m.Reports k where
  line := h'.line.trans h.line
  diagnostics d mem := by
    obtain old | new := h'.diagnostics d mem
    · exact h.diagnostics d old
    · exact .inr (new.trans h.line)

/-- Two actions that end with one value on machines of one scope. They leave such machines, and the
first one reports what it reports on its line. -/
def Concur (s : Scope) (α : Type) (x x' : Run α) : Prop :=
  ∀ m m', Machine.Beside s m m' → ∃ a n n',
    x.on m = some (.ok a, n) ∧ x'.on m' = some (.ok a, n') ∧ n.Beside s n' ∧ m.Reports n

namespace Concur

variable {s : Scope} {α β : Type} {x x' : Run α}

/-- Nothing happens. -/
lemma pure (a : α) : Concur s α (pure a) (pure a) :=
  fun m m' h => ⟨a, m, m', rfl, rfl, h, .of_eq rfl rfl⟩

/-- One action after another. -/
lemma bind {f f' : α → Run β} (first : Concur s α x x') (next : ∀ a, Concur s β (f a) (f' a)) :
    Concur s β (x >>= f) (x' >>= f') := by
  intro m m' h
  obtain ⟨a, n, n', e, e', beside, reports⟩ := first m m' h
  obtain ⟨b, k, k', g, g', beside', reports'⟩ := next a n n' beside
  refine ⟨b, k, k', ?_, ?_, beside', reports.trans reports'⟩
  · rw [Run.on_bind, e]
    exact g
  · rw [Run.on_bind, e']
    exact g'

/-- What is the same on both machines is read off, and then there is something to do. -/
lemma read {g : Machine → α} {f f' : α → Run β} (same : ∀ m m', m.Beside s m' → g m' = g m)
    (next : ∀ m m', m.Beside s m' → Concur s β (f (g m)) (f' (g m))) :
    Concur s β (Run.read g >>= f) (Run.read g >>= f') := by
  intro m m' h
  have found := next m m' h m m' h
  rw [Run.on_bind, Run.on_bind, Run.on_read, Run.on_read]
  dsimp only
  rwa [same m m' h]

/-- Something is changed, and nothing reported. -/
lemma update {f : Machine → Machine} (keeps : ∀ m m', m.Beside s m' → (f m).Beside s (f m'))
    (reports : ∀ m : Machine, m.Reports (f m)) : Concur s Unit (Run.update f) (Run.update f) :=
  fun m m' h => ⟨(), f m, f m', rfl, rfl, keeps m m' h, reports m⟩

/-- Both look at the same scope. -/
lemma readScope {f f' : Scope → Run β} (next : Concur s β (f s) (f' s)) :
    Concur s β (Run.read (·.scope) >>= f) (Run.read (·.scope) >>= f') :=
  read (fun _ _ h => h.scope'.trans h.scope.symm) fun _ _ h => by rwa [h.scope]

/-- An event. -/
lemma record (e : Event) : Concur s Unit (Run.record e) (Run.record e) :=
  update (fun _ _ h => ⟨h.scope, h.scope', h.random, h.console, h.clock⟩) fun _ => .of_eq rfl rfl

/-- Whatever two diagnostics say. -/
lemma diagnose (cause cause' : Diagnostic.Cause) :
    Concur s Unit (Run.diagnose cause) (Run.diagnose cause') := by
  intro m m' h
  refine ⟨(), _, _, rfl, rfl, ⟨h.scope, h.scope', h.random, h.console, h.clock⟩, rfl, ?_⟩
  intro d mem
  obtain old | rfl := Array.mem_push.mp mem
  · exact .inl old
  · exact .inr rfl

/-- A line of output. -/
lemma print (line : String) : Concur s Unit (Run.print line) (Run.print line) := by
  refine read (fun _ _ h => congrArg Console.broken h.console) fun m _ _ => ?_
  split
  · exact record _
  · refine update (fun _ _ h => ⟨h.scope, h.scope', h.random, ?_, h.clock⟩) fun _ => .of_eq rfl rfl
    exact congrArg (fun c : Console => { c with lines := c.lines.push line }) h.console

/-- A random number. -/
lemma draw : Concur s Float Run.draw Run.draw := by
  refine read (fun _ _ h => h.random) fun _ _ _ => ?_
  refine bind (update (fun _ _ h => ?_) fun _ => .of_eq rfl rfl) fun _ => pure _
  exact ⟨h.scope, h.scope', rfl, h.console, h.clock⟩

/-- The time. -/
lemma tellTime : Concur s (Option Nat) Run.tellTime Run.tellTime := by
  refine read (fun _ _ h => h.clock) fun _ _ _ => ?_
  refine bind (update (fun _ _ h => ?_) fun _ => .of_eq rfl rfl) fun _ => pure _
  exact ⟨h.scope, h.scope', h.random, h.console, rfl⟩

/-- A variable is looked up. -/
lemma lookup (name : String) : Concur s Value (Run.lookup name) (Run.lookup name) := by
  refine readScope ?_
  cases s.get? name with
  | some v => exact pure v
  | none => exact bind (diagnose _ _) fun _ => pure _

variable (builtin : ∀ name, ∀ f ∈ s.function? name, f ∈ Host.builtins) (limits : Limits)
  (fuel : Nat)

include builtin in
/-- A call, where all functions are built-in ones. -/
lemma callByName (name : String) (arguments : List Value) :
    Concur s Value (callByName limits (fuel + 1) name arguments)
      (callByName limits (fuel + 1) name arguments) := by
  refine readScope ?_
  cases found : s.function? name with
  | none => exact bind (diagnose _ _) fun _ => pure _
  | some f =>
    dsimp only
    obtain ⟨text, prints⟩ | tells := call_builtin (builtin name f found) arguments
    · rw [prints]
      exact bind (print text) fun _ => pure _
    · rw [tells]
      exact bind tellTime fun _ => pure _

include builtin in
/-- Two formulas of one shape have one value. -/
lemma formula {f f' : Formula} (same : f.shape? = f'.shape?) :
    Concur s Value (f.eval (Linework.callByName limits (fuel + 1)))
      (f'.eval (Linework.callByName limits (fuel + 1))) := by
  cases shape : f.shape? with
  | none =>
    obtain ⟨cause, value⟩ := Formula.eval_of_shape?_none shape
    obtain ⟨cause', value'⟩ := Formula.eval_of_shape?_none (same ▸ shape)
    rw [value, value']
    exact bind (diagnose _ _) fun _ => pure _
  | some e =>
    have relates : Relates (Concur s) id (Linework.callByName limits (fuel + 1))
        (Linework.callByName limits (fuel + 1)) e.refs e.callees :=
      ⟨⟨pure, bind⟩, draw, fun name _ => lookup name,
        fun name _ => callByName builtin limits fuel name⟩
    have value := relates.eval e
    rw [e.rename_id] at value
    rwa [Formula.eval_of_shape? shape, Formula.eval_of_shape? (same ▸ shape)]

end Concur

/-! ### Scripts that declare a name and return it -/

/-- The line `let name = t`. -/
def letLine (name t : List Char) : List Char := "let".toList ++ ' ' :: (name ++ " = ".toList ++ t)

/-- The line `return name`. -/
def returnLine (name : List Char) : List Char := "return".toList ++ ' ' :: name

/-- A name is declared with one formula and another formula is returned. -/
def Script.declaring (name : String) (value result : Formula) : Script :=
  ⟨[.plain 1 (.declare name (some value)), .plain 2 (.yield (some result))], [], []⟩

section

variable {name t : List Char}

/-- The name of a declaration, and its value up to places. -/
lemma readDeclaration?_name (h : Line.isName name = true) (t : List Char) :
    ∃ value, Line.readDeclaration? (trim (name ++ " = ".toList ++ t)) =
      some (String.ofList name, some value) ∧ value.shape? = (Formula.compile t).shape? := by
  have noEquals : '=' ∉ name ++ [' '] := by
    intro mem
    obtain letter | other := List.mem_append.mp mem
    · exact sign_not_mem h (by decide) letter
    · exact absurd other (by decide)
  have blank : Blank [' '] := by decide
  have trimmed : Trimmed (name ++ [' ', '=']) := by
    refine ⟨fun c first => ?_, fun c last => ?_⟩
    · rw [List.head?_append_of_ne_nil _ (Token.ne_nil_of_isName h)] at first
      exact (trimmed_of_isName h).first c first
    · rw [List.getLast?_append_of_ne_nil _ (List.cons_ne_nil _ _)] at last
      cases last
      decide
  have text : name ++ " = ".toList ++ t = (name ++ [' ', '=']) ++ ' ' :: t := by simp
  have line : trim (name ++ " = ".toList ++ t) = (name ++ [' ']) ++ '=' :: trimEnd (' ' :: t) := by
    rw [text, trim_word_append trimmed (by simp)]
    simp
  have nameTrimmed : trim (name ++ [' ']) = name :=
    trim_padded (List.forall_mem_nil _) blank (trimmed_of_isName h)
  refine ⟨Formula.compile (trimEnd (' ' :: t)), ?_, ?_⟩
  · rw [line, Line.readDeclaration?, cut?_append noEquals]
    dsimp only
    rw [nameTrimmed, if_pos h]
  · obtain ⟨right, blank', split, -⟩ := trimEnd_spec (' ' :: t)
    have front := Formula.shape?_padded (List.forall_mem_nil _) blank' (trimEnd (' ' :: t))
    have back := Formula.shape?_padded blank (List.forall_mem_nil _) t
    rw [List.nil_append, ← split] at front
    rw [List.append_nil] at back
    exact front.symm.trans back

/-- A line that declares a name is one statement. -/
lemma addText_letLine {value : Formula} (declared : Line.readDeclaration?
    (trim (name ++ " = ".toList ++ t)) = some (String.ofList name, some value)) (l : Layout)
    (k : Nat) : l.addText k (letLine name t) =
      .ok (l.push (.plain k (.declare (String.ofList name) (some value)))) := by
  have mem : "let" ∈ Line.openers := by decide
  have loud : Layout.isSilent (trim (letLine name t)) = false := loud_of_opener mem _
  have rest : Line.afterKeyword? "let" (trim (letLine name t)) =
      some (trim (name ++ " = ".toList ++ t)) := afterKeyword?_spaced mem _
  rw [Layout.addText_eq_take loud, read_declaration rest, declared]
  rfl

/-- A line that returns a name is one statement. -/
lemma addText_returnLine (h : Line.isName name = true) (l : Layout) (k : Nat) :
    l.addText k (returnLine name) =
      .ok (l.push (.plain k (.yield (some (Formula.compile name))))) := by
  have mem : "return" ∈ Line.openers := by decide
  have loud : Layout.isSilent (trim (returnLine name)) = false := loud_of_opener mem _
  have rest : Line.afterKeyword? "return" (trim (returnLine name)) = some (trim name) :=
    afterKeyword?_spaced mem name
  have trimmed := trimmed_of_isName h
  have alone : trim name = name := by
    rw [trim, trimStart_eq_self trimmed.first, trimEnd_eq_self trimmed.last]
  rw [Layout.addText_eq_take loud, read_return rest, alone, if_neg (Token.ne_nil_of_isName h)]
  rfl

/-- The line that declares a name is one line. -/
lemma newline_not_mem_letLine (h : Line.isName name = true) (single : '\n' ∉ t) :
    '\n' ∉ letLine name t := by
  have words : '\n' ∉ "let".toList ∧ '\n' ∉ " = ".toList := by simp
  refine List.not_mem_append words.1 (List.not_mem_cons_of_ne_of_not_mem (by decide) ?_)
  exact List.not_mem_append (List.not_mem_append (sign_not_mem h (by decide)) words.2) single

/-- The line that returns a name is one line. -/
lemma newline_not_mem_returnLine (h : Line.isName name = true) : '\n' ∉ returnLine name := by
  have word : '\n' ∉ "return".toList := by simp
  exact List.not_mem_append word
    (List.not_mem_cons_of_ne_of_not_mem (by decide) (sign_not_mem h (by decide)))

/-- The two lines are two statements. -/
lemma parse_lines (h : Line.isName name = true) (single : '\n' ∉ t) :
    ∃ value, Script.parse (letLine name t ++ '\n' :: returnLine name) =
        .ok (.declaring (String.ofList name) value (Formula.compile name)) ∧
      value.shape? = (Formula.compile t).shape? := by
  obtain ⟨value, declared, shape⟩ := readDeclaration?_name h t
  have inside : ∀ raw ∈ [letLine name t, returnLine name], '\n' ∉ raw :=
    List.forall_mem_cons.mpr ⟨newline_not_mem_letLine h single,
      List.forall_mem_singleton.mpr (newline_not_mem_returnLine h)⟩
  have lines := lines_intercalate (List.cons_ne_nil _ _) inside
  have text : ['\n'].intercalate [letLine name t, returnLine name] =
      letLine name t ++ '\n' :: returnLine name := by
    simp [List.intercalate]
  rw [text] at lines
  refine ⟨value, ?_, shape⟩
  rw [Script.parse, lines, Layout.addLines, addText_letLine declared]
  show (Layout.addLines _ 2 [returnLine name] >>= fun l => pure l.toScript) = _
  rw [Layout.addLines, addText_returnLine h]
  rfl

end

/-- The machine when a statement on a line has paid its step. -/
def Machine.paid (m : Machine) (line : Nat) : Machine :=
  { m with line := line, budget.granted := m.budget.granted + 1 }

/-- A value that has been declared in a root is found under its name. -/
lemma get?_declare_self {contexts : Forest} {here : Nat} {frame : Frame}
    (root : contexts.HasRoot here frame) (name : String) (v : Value) :
    ((Scope.mk none contexts here).declare name v).get? name = some v := by
  have bound : (frame.declare name v).get? name = some v := by
    rw [Frame.get?_declare, if_pos rfl]
  exact ((root.declare name v).get? name).trans bound

section

variable {invoke : Invoke} {fuel : Nat} {m n : Machine} {name : Token} {value result : Formula}
  {v : Value}

/-- Without limits no step is refused. -/
lemma on_block_plain (line : Nat) (i : Instruction) (rest : List Statement) (m : Machine) :
    (executeBlock .default invoke fuel (.plain line i :: rest)).on m =
      (i.execute invoke line >>= fun _ => executeBlock .default invoke fuel rest).on
        (m.paid line) :=
  rfl

/-- A name is declared with the value of a formula. -/
lemma on_declare (declared : (value.eval invoke).on m = some (.ok v, n)) (name : String)
    (line : Nat) : ((Instruction.declare name (some value)).execute invoke line).on m =
      some (.ok (), { n with scope := n.scope.declare name v }) := by
  rw [Instruction.execute, Formula.evalOptional, Run.on_bind, declared]
  rfl

/-- A variable that is bound is handed back. -/
lemma on_yield_ref (ref : result.compiled = .ok (.ref name))
    (bound : m.scope.get? name.lexeme = some v) (line : Nat) :
    ((Instruction.yield (some result)).execute invoke line).on m =
      some (.error (.yield v line), m) := by
  have handed : result.eval invoke = Run.lookup name.lexeme := by
    rw [Formula.eval, ref]
    rfl
  rw [Instruction.execute, Formula.evalOptional, handed, Run.on_bind, Run.on_lookup bound]
  rfl

/-- A name is declared with the value of a formula and then handed back. -/
lemma on_declaring (declared : (value.eval invoke).on (m.paid 1) = some (.ok v, n))
    (bound : (n.scope.declare name.lexeme v).get? name.lexeme = some v)
    (ref : result.compiled = .ok (.ref name)) :
    (executeBlock .default invoke fuel (Script.declaring name.lexeme value result).block).on m =
      some (.error (.yield v 2),
        Machine.paid { n with scope := n.scope.declare name.lexeme v } 2) := by
  rw [Script.declaring, on_block_plain, Run.on_bind, on_declare declared]
  dsimp only
  rw [on_block_plain, Run.on_bind, on_yield_ref ref bound]

end

/-- A script that declares a name and returns it has the value of the declaration, and reports
nothing but what the declaration does. -/
lemma run_declaring (root : Frame) (builtin : root.functions = Host.builtins) (m : Machine)
    (fuel : Nat) {name : Token} {value result f : Formula} (same : value.shape? = f.shape?)
    (ref : result.compiled = .ok (.ref name)) :
    ∃ v n n', m.run .default (fuel + 1) root (.declaring name.lexeme value result) =
        some (.ok v, n) ∧
      (f.eval (callByName .default (fuel + 1))).on
        { m with scope := .above none root m.scope.contexts } = some (.ok v, n') ∧
      n.random = n'.random ∧ n.console = n'.console ∧ ∀ d ∈ n.diagnostics, d.line = 1 := by
  let s : Scope := .above none root m.scope.contexts
  have isRoot : s.contexts.HasRoot s.here root := Forest.hasRoot_make root m.scope.contexts
  have offered (name : String) : ∀ f ∈ s.function? name, f ∈ Host.builtins := by
    intro f found
    rw [← builtin]
    exact List.mem_of_find?_eq_some ((isRoot.function? name).symm.trans found)
  -- one step has been paid for the declaration, and no function has been added
  have beside : Machine.Beside s ((m.restart root (.declaring name.lexeme value result)).paid 1)
      { m with scope := s } := by
    refine ⟨?_, rfl, rfl, rfl, rfl⟩
    show Scope.above none { root with functions := root.functions ++ [] } _ = _
    rw [List.append_nil]
  obtain ⟨v, n, n', e, e', beside', reports⟩ :=
    Concur.formula offered .default fuel same _ _ beside
  have bound : (n.scope.declare name.lexeme v).get? name.lexeme = some v := by
    rw [beside'.scope]
    exact get?_declare_self isRoot name.lexeme v
  rw [Machine.run, execute, on_declaring e bound ref]
  refine ⟨v, _, n', rfl, e', beside'.random.symm, beside'.console.symm, ?_⟩
  intro d mem
  obtain old | new := reports.diagnostics d mem
  · exact absurd (Array.mem_toList_iff.mpr old) List.not_mem_nil
  · exact new

/-- The names that can be declared can be referred to: such a name is a variable, and a call before
a pair of parentheses. So a script that declares a name with an expression and returns it has the
value that the expression has in a fresh root, and reports nothing for the reference. -/
theorem name_refers_to_declaration {name : List Char} (h : Line.isName name = true) :
    (Formula.compile name).compiled = .ok (.ref ⟨.identifier, String.ofList name, none, 1⟩) ∧
    (Formula.compile (name ++ ['(', ')'])).compiled =
      .ok (.call ⟨.identifier, String.ofList name, none, 1⟩ []) ∧
    ∀ e : Engine, e.natives = Host.builtins → e.limits = Limits.default → ∀ t, '\n' ∉ t →
      ∀ fuel, ∃ script v e₁ e₂,
        Script.parse (letLine name t ++ '\n' :: returnLine name) = .ok script ∧
        e.run (fuel + 1) script = some (.ok v, e₁) ∧
        e.makeRoot.evaluate (fuel + 1) e.contexts.length t = some (.ok v, e₂) ∧
        e₁.machine.random = e₂.machine.random ∧
        e₁.machine.console = e₂.machine.console ∧
        ∀ d ∈ e₁.machine.diagnostics, d.line = 1 := by
  refine ⟨Formula.compile_name h, Formula.compile_call h, ?_⟩
  rintro ⟨_, _, m⟩ ⟨⟩ ⟨⟩ t single fuel
  obtain ⟨value, parsed, shape⟩ := parse_lines h single
  obtain ⟨v, n, n', ran, evaluated, random, console, reports⟩ :=
    run_declaring ⟨Engine.globals, Host.builtins⟩ rfl m fuel shape
      (Formula.compile_name h)
  refine ⟨_, v, ⟨_, _, n⟩, ⟨_, _, n'⟩, parsed, congrArg (Option.map _) ran,
    congrArg (Option.map _) evaluated, random, console, reports⟩

/-- A name that would be read as a number elsewhere, and a value that needs its blanks trimmed. -/
theorem name_refers_to_declaration_inf :
    Line.isName "inf".toList = true ∧ '\n' ∉ "  \"a\" + 1\t".toList ∧
    (Formula.compile "inf".toList).compiled = .ok (.ref ⟨.identifier, "inf", none, 1⟩) ∧
    ∃ script v e₁,
      Script.parse
        (letLine "inf".toList "  \"a\" + 1\t".toList ++ '\n' :: returnLine "inf".toList) =
        .ok script ∧
      Engine.quiet.run 1 script = some (.ok v, e₁) ∧ v.display = "a1" ∧
      ∀ d ∈ e₁.machine.diagnostics, d.line = 1 := by
  have isName : Line.isName "inf".toList = true := by decide +kernel
  have single : '\n' ∉ "  \"a\" + 1\t".toList := by decide +kernel
  obtain ⟨ref, -, runs⟩ := name_refers_to_declaration isName
  obtain ⟨script, v, e₁, e₂, parsed, ran, evaluated, -, -, reports⟩ :=
    runs Engine.quiet rfl rfl _ single 0
  have shown : (Engine.quiet.makeRoot.evaluate 1 0 "  \"a\" + 1\t".toList).map
      (fun p => p.1.toOption.map Value.display) = some (some "a1") := by
    decide +kernel
  have evaluated : Engine.quiet.makeRoot.evaluate 1 0 "  \"a\" + 1\t".toList =
      some (.ok v, e₂) := evaluated
  rw [evaluated] at shown
  rw [String.ofList_toList] at ref
  exact ⟨isName, single, ref, script, v, e₁, parsed, ran, Option.some.inj (Option.some.inj shown),
    reports⟩

end Linework
