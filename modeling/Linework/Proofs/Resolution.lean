import Linework.Proofs.Renaming

/-!
# Which functions count

A call finds the first function of its name, the built-in ones before those of the script. Runs that
find the same functions under all names show the same, so that a hidden function may as well be
missing, and functions of different names may stand in any order.
-/

namespace Linework

/-- The function that a name has in a script: the first one, after the built-in ones. -/
def resolve? (functions : List Definition) (name : String) : Option Function :=
  (Host.builtins ++ functions.map Definition.toFunction).find? (·.name = name)

/-- Under a name that has one function, the functions of two runs correspond. -/
lemma rewritten_resolve? {functions functions' : List Definition} {name : String}
    (same : resolve? functions name = resolve? functions' name) :
    Option.Rel (Function.Rewritten id) (resolve? functions name) (resolve? functions' name) := by
  rw [← same]
  cases found : resolve? functions name with
  | none => exact .none
  | some f =>
    refine .some ?_
    rcases List.mem_append.mp (List.mem_of_find?_eq_some found) with builtin | defined
    · exact .builtin builtin
    · obtain ⟨d, -, rfl⟩ := List.mem_map.mp defined
      exact Function.rewritten_self d

/-- What a block shows when it is run with some functions. -/
def Machine.showing (m : Machine) (limits : Limits) (fuel : Nat) (block : Block)
    (warnings : List Diagnostic) (functions : List Definition) :
    Option (Except RunError Value × Console × Array Diagnostic × UInt64 × Feed Float) :=
  (m.run limits fuel builtinRoot ⟨block, functions, warnings⟩).map shown

section

variable {functions functions' before after : List Definition} {d : Definition}

/-- Under each name the same function is all that matters. -/
lemma showing_of_resolve? (same : ∀ name, resolve? functions name = resolve? functions' name)
    (m : Machine) (limits : Limits) (fuel : Nat) (block : Block) (warnings : List Diagnostic) :
    m.showing limits fuel block warnings functions' =
      m.showing limits fuel block warnings functions := by
  rw [Machine.showing, Machine.showing]
  nth_rewrite 2 [← shownAt_id]
  exact run_shows id m limits fuel (relabelBlock_id block).symm
    (fun name => rewritten_resolve? (same name)) (List.map_id warnings).symm

/-- The functions of a list count after those of another. -/
lemma resolve?_append (before after : List Definition) (name : String) :
    resolve? (before ++ after) name =
      (resolve? before name).or ((after.map Definition.toFunction).find? (·.name = name)) := by
  rw [resolve?, resolve?, List.map_append, ← List.append_assoc]
  exact List.find?_append

/-- A function whose name is taken already is never found. -/
lemma resolve?_hidden
    (hidden : d.name ∈ Host.builtins.map Function.name ∨ d.name ∈ before.map Definition.name)
    (name : String) : resolve? (before ++ d :: after) name = resolve? (before ++ after) name := by
  rw [resolve?_append, resolve?_append, List.map_cons, List.find?_cons]
  by_cases own : d.name = name
  · have taken : (resolve? before name).isSome := by
      rw [resolve?, List.find?_isSome]
      rcases hidden with builtin | earlier
      · obtain ⟨f, mem, same⟩ := List.mem_map.mp builtin
        exact ⟨f, List.mem_append_left _ mem, decide_eq_true (same.trans own)⟩
      · obtain ⟨e, mem, same⟩ := List.mem_map.mp earlier
        exact ⟨e.toFunction, List.mem_append_right _ (List.mem_map_of_mem mem),
          decide_eq_true (same.trans own)⟩
    obtain ⟨f, found⟩ := Option.isSome_iff_exists.mp taken
    rw [found, Option.some_or, Option.some_or]
  · have other : decide (d.toFunction.name = name) = false := decide_eq_false own
    rw [other]

/-- The order of functions matters among those of one name only. -/
lemma resolve?_reordered
    (same : ∀ name, functions.filter (·.name = name) = functions'.filter (·.name = name))
    (name : String) : resolve? functions name = resolve? functions' name := by
  have first (ds : List Definition) : (ds.map Definition.toFunction).find? (·.name = name) =
      (ds.filter (·.name = name)).head?.map Definition.toFunction := by
    rw [List.find?_map, List.head?_filter]
    rfl
  rw [resolve?, resolve?, List.find?_append, List.find?_append, first, first, same name]

end

/-- A run shows the same with other functions if under every name the first one is the same. So a
function may be taken away if its name belongs to a built-in function or to an earlier one, and
functions may change places if those of one name keep their order. -/
theorem run_finds_first (m : Machine) (limits : Limits) (fuel : Nat) (block : Block)
    (warnings : List Diagnostic) :
    (∀ functions functions', (∀ name, resolve? functions name = resolve? functions' name) →
      m.showing limits fuel block warnings functions' =
        m.showing limits fuel block warnings functions) ∧
    (∀ before d after,
      d.name ∈ Host.builtins.map Function.name ∨ d.name ∈ before.map Definition.name →
      m.showing limits fuel block warnings (before ++ after) =
        m.showing limits fuel block warnings (before ++ d :: after)) ∧
    ∀ functions functions',
      (∀ name, functions.filter (·.name = name) = functions'.filter (·.name = name)) →
      m.showing limits fuel block warnings functions' =
        m.showing limits fuel block warnings functions := by
  refine ⟨?_, ?_, ?_⟩
  · exact fun _ _ same => showing_of_resolve? same m limits fuel block warnings
  · exact fun _ _ _ hidden =>
      showing_of_resolve? (resolve?_hidden hidden) m limits fuel block warnings
  · exact fun _ _ same =>
      showing_of_resolve? (resolve?_reordered same) m limits fuel block warnings

/-- A function that shows its parameter. -/
def echo : Definition := ⟨"echo", ["x"], [callWith 2 "debug" "x"]⟩

/-- A later function of that name, which would go on for ever. -/
def echoes : Definition := ⟨"echo", ["x"], [callWith 5 "echo" "x"]⟩

/-- A function with the name of a built-in one. -/
def silence : Definition := ⟨"debug", ["x"], []⟩

/-- Neither hidden function is called, although both names are. -/
theorem run_finds_first_echo :
    (∀ name, resolve? [silence, echo, echoes] name = resolve? [echo] name) ∧
    silence.name ∈ Host.builtins.map Function.name ∧
    (∀ name, [silence, echo].filter (·.name = name) = [echo, silence].filter (·.name = name)) ∧
    ∀ functions ∈ [[silence, echo, echoes], [silence, echo], [echo, silence]],
      (Engine.quiet.machine.showing Limits.default 3 [callWith 7 "echo" "true"] []
        functions).map (·.2.1.lines) = some #["true"] := by
  have builtin : silence.name ∈ Host.builtins.map Function.name := by decide
  have same (name : String) : resolve? [silence, echo, echoes] name = resolve? [echo] name :=
    calc resolve? ([] ++ silence :: [echo, echoes]) name
      _ = resolve? ([echo] ++ echoes :: []) name := resolve?_hidden (.inl builtin) name
      _ = resolve? [echo] name := resolve?_hidden (.inr (by decide)) name
  have reordered (name : String) :
      [silence, echo].filter (·.name = name) = [echo, silence].filter (·.name = name) := by
    by_cases own : silence.name = name
    · subst own
      rfl
    · simp [List.filter_cons, own]
  refine ⟨same, builtin, reordered, ?_⟩
  obtain ⟨finds, hides, orders⟩ := run_finds_first Engine.quiet.machine Limits.default 3
    [callWith 7 "echo" "true"] []
  have printed : (Engine.quiet.machine.showing Limits.default 3 [callWith 7 "echo" "true"] []
      [echo]).map (·.2.1.lines) = some #["true"] := by decide +kernel
  have hidden := hides [] silence [echo] (.inl builtin)
  refine List.forall_mem_cons.mpr ⟨?_, List.forall_mem_cons.mpr ⟨?_, ?_⟩⟩
  · rw [← finds _ _ same]
    exact printed
  · exact hidden ▸ printed
  · rw [List.forall_mem_singleton, orders _ _ reordered]
    exact hidden ▸ printed

end Linework
