import Linework.Proofs.Tiling

/-!
# Texts in quotes

Which texts a string can stand for, and how it is written. A quote inside has a backslash before it
and a backslash is written as itself, so that no backslash can stand before the closing quote: the
texts that have a string are those that do not end in a backslash, and each has only one.
-/

namespace Linework.Token

/-- A text with a backslash before each of its quotes. -/
def escaped (text : List Char) : List Char :=
  text.flatMap fun c => if c = '"' then ['\\', '"'] else [c]

/-- The string of a text. -/
def inQuotes (text : List Char) : List Char := '"' :: (escaped text ++ ['"'])

/-- Some expression has a string for the text. -/
def Expressible (text : List Char) : Prop :=
  ∃ source tokens, scan source = .ok tokens ∧
    ∃ t ∈ tokens, t.kind = .stringLiteral ∧ t.literal = some (.text (String.ofList text))

/-- A quote is written with a backslash before it. -/
lemma escaped_quote (text : List Char) : escaped ('"' :: text) = '\\' :: '"' :: escaped text := rfl

/-- Every other character is written as it is. -/
lemma escaped_other {c : Char} (other : c ≠ '"') (text : List Char) :
    escaped (c :: text) = c :: escaped text := by
  rw [escaped, List.flatMap_cons, if_neg other]
  rfl

/-- No quote stands first, since each has a backslash before it. -/
lemma head?_escaped_ne {text : List Char} (nonempty : text ≠ []) (rest : List Char) :
    (escaped text ++ rest).head? ≠ some '"' := by
  cases text with
  | nil => exact absurd rfl nonempty
  | cons c text =>
    by_cases quote : c = '"'
    · subst quote
      rw [escaped_quote]
      intro first
      cases first
    · rw [escaped_other quote]
      intro first
      cases first
      exact quote rfl

/-- How a text does not end, from its first character on. -/
lemma getLast?_cons_ne {c d : Char} {text : List Char} :
    (c :: text).getLast? ≠ some d ↔ text.getLast? ≠ some d ∧ (text = [] → c ≠ d) := by
  cases text with
  | nil => simp
  | cons e text => simp [List.getLast?_cons_cons]

/-- An escaped text is read as the text. -/
lemma written_escaped {text : List Char} (last : text.getLast? ≠ some '\\') :
    Written (escaped text ++ ['"']) text := by
  induction text with
  | nil => exact .closing
  | cons c text ih =>
    obtain ⟨later, alone⟩ := getLast?_cons_ne.mp last
    by_cases quote : c = '"'
    · subst quote
      apply Written.quote
      exact ih later
    · rw [escaped_other quote]
      apply Written.char quote _ (ih later)
      intro backslash
      apply head?_escaped_ne
      intro nothing
      exact alone nothing backslash

/-- How a string is written and which texts it can stand for. -/
lemma written_iff {body text : List Char} :
    Written body text ↔ body = escaped text ++ ['"'] ∧ text.getLast? ≠ some '\\' := by
  constructor
  · intro h
    induction h with
    | closing => exact ⟨rfl, nofun⟩
    | quote _ ih =>
      obtain ⟨rfl, last⟩ := ih
      exact ⟨rfl, getLast?_cons_ne.mpr ⟨last, fun _ => by decide⟩⟩
    | char other itself _ ih =>
      obtain ⟨rfl, last⟩ := ih
      refine ⟨by rw [escaped_other other]; rfl, getLast?_cons_ne.mpr ⟨last, ?_⟩⟩
      -- a backslash at the end would take the closing quote for itself
      rintro rfl backslash
      exact itself backslash rfl
  · rintro ⟨rfl, last⟩
    exact written_escaped last

/-- No operator of one character is a text. -/
lemma lone?_ne_stringLiteral (c : Char) : lone? c ≠ some .stringLiteral := by
  fun_cases lone? c with
  | case4 => fun_cases single? c <;> rintro ⟨⟩
  | _ => rintro ⟨⟩

/-- No operator of two characters is a text. -/
lemma double?_ne_stringLiteral (c d : Char) : double? c d ≠ some .stringLiteral := by
  fun_cases double? c d <;> rintro ⟨⟩

/-- Strings are read from their characters in quotes. -/
lemma Reads.of_string {word rest : List Char} {literal : Option Value}
    (h : Reads word rest .stringLiteral literal) :
    ∃ text, text.getLast? ≠ some '\\' ∧ word = inQuotes text ∧
      literal = some (.text (String.ofList text)) := by
  cases h with
  | single one => exact absurd one (lone?_ne_stringLiteral _)
  | double two => exact absurd two (double?_ne_stringLiteral _ _)
  | string written =>
    obtain ⟨rfl, last⟩ := written_iff.mp written
    exact ⟨_, last, rfl, rfl⟩
  | operand _ _ _ read => cases (operand_eq_token read).2.1

/-- A token that is a string is one that some text has. -/
lemma Passes.of_string {rest cs : List Char} {k : Nat} {ts : List Token} (h : Passes rest k cs ts) :
    ∀ t ∈ ts, t.kind = .stringLiteral →
      ∃ text, text.getLast? ≠ some '\\' ∧ t.lexeme = String.ofList (inQuotes text) ∧
        t.literal = some (.text (String.ofList text)) := by
  induction h with
  | done => exact List.forall_mem_nil _
  | token _ reads _ ih =>
    refine List.forall_mem_cons.mpr ⟨?_, ih⟩
    rintro rfl
    obtain ⟨text, last, rfl, rfl⟩ := reads.of_string
    exact ⟨text, last, rfl, rfl⟩

/-- A text in a line is one in quotes. -/
lemma of_string {source : List Char} {tokens : List Token} (scanned : scan source = .ok tokens)
    {t : Token} (mem : t ∈ tokens) (kind : t.kind = .stringLiteral) :
    ∃ text, text.getLast? ≠ some '\\' ∧ t.lexeme = String.ofList (inQuotes text) ∧
      t.literal = some (.text (String.ofList text)) := by
  obtain ⟨ts, passes, scanned'⟩ | ⟨_, _, _, _, _, _, _, _, scanned'⟩ := scan_cases source
  · rw [scanned'] at scanned
    cases scanned
    rcases List.mem_append.mp mem with mem | mem
    · exact passes.of_string t mem kind
    · cases List.mem_singleton.mp mem
      cases kind
  · rw [scanned'] at scanned
    cases scanned

/-- A text in quotes is one token. -/
lemma scan_inQuotes {text : List Char} (last : text.getLast? ≠ some '\\') :
    scan (inQuotes text) =
      .ok [⟨.stringLiteral, String.ofList (inQuotes text), some (.text (String.ofList text)), 1⟩,
        ending (inQuotes text).length] := by
  have reads : Reads (inQuotes text) [] .stringLiteral (some (.text (String.ofList text))) :=
    .string (written_escaped last)
  have scanned := scanFrom_reads reads 1
  rw [List.append_nil, Nat.add_comm 1] at scanned
  exact scanned

/-- A text that does not end in a backslash is what its string stands for. Every string in an
expression is that of such a text. So these texts are all that can be expressed. -/
theorem scan_strings (text : List Char) :
    (text.getLast? ≠ some '\\' →
      scan (inQuotes text) =
        .ok [⟨.stringLiteral, String.ofList (inQuotes text), some (.text (String.ofList text)), 1⟩,
          ⟨.endOfText, "", none, (inQuotes text).length + 1⟩]) ∧
    (∀ source tokens, scan source = .ok tokens → ∀ t ∈ tokens, t.kind = .stringLiteral →
      ∃ value, t.literal = some (.text value) ∧ value.toList.getLast? ≠ some '\\' ∧
        t.lexeme.toList = inQuotes value.toList) ∧
    (Expressible text ↔ text.getLast? ≠ some '\\') := by
  refine ⟨scan_inQuotes, ?_, ?_, ?_⟩
  · intro source tokens scanned t mem kind
    obtain ⟨value, last, lexeme, literal⟩ := of_string scanned mem kind
    refine ⟨String.ofList value, literal, ?_, ?_⟩
    · rwa [String.toList_ofList]
    · rw [lexeme, String.toList_ofList, String.toList_ofList]
  · rintro ⟨source, tokens, scanned, t, mem, kind, literal⟩
    obtain ⟨value, last, -, literal'⟩ := of_string scanned mem kind
    rw [literal] at literal'
    cases String.ofList_injective (Value.text.inj (Option.some.inj literal'))
    exact last
  · intro last
    exact ⟨_, _, scan_inQuotes last, _, List.mem_cons_self, rfl, rfl⟩

/-- Backslashes before, between and after quotes. -/
def barbed : List Char := "\\\"\\\\\"\"a".toList

/-- Backslashes and quotes, but for a backslash before the last quote. -/
theorem scan_strings_barbed :
    inQuotes barbed = "\"\\\\\"\\\\\\\"\\\"a\"".toList ∧
    (∃ t, scan (inQuotes barbed) = .ok [t, ⟨.endOfText, "", none, 13⟩] ∧
      t.kind = .stringLiteral ∧ t.literal = some (.text (String.ofList barbed)) ∧
      ∃ value, t.literal = some (.text value) ∧ value.toList.getLast? ≠ some '\\' ∧
        t.lexeme.toList = inQuotes value.toList) ∧
    ¬ Expressible "\\\"\\".toList := by
  have last : barbed.getLast? ≠ some '\\' := by decide +kernel
  have length : (inQuotes barbed).length = 12 := by decide +kernel
  have backslash : "\\\"\\".toList.getLast? = some '\\' := by decide +kernel
  obtain ⟨scanned, strings, -⟩ := scan_strings barbed
  refine ⟨by decide +kernel, ⟨_, length ▸ scanned last, rfl, rfl, ?_⟩, ?_⟩
  · exact strings _ _ (scanned last) _ List.mem_cons_self rfl
  · intro expressed
    exact (scan_strings _).2.2.mp expressed backslash

end Linework.Token
