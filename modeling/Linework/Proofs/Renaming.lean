import Linework.Proofs.Correspondence

/-!
# Renaming the parameters of functions

A parameter of a function may get another name there, if that name does not occur in the function:
the script then runs as before. It does not matter whether one of the names is that of a global or
of a variable of another function.
-/

namespace Linework

namespace Renaming

/-- One name becomes another that is not in use. -/
def single (x y : String) (names : List String) (fresh : y ∉ names) : Renaming where
  new z := if z = x then y else z
  covers z := z ∈ names
  injective {a b} ha hb e := by
    by_cases hx : a = x <;> by_cases hx' : b = x <;> simp only [hx, hx', if_true, if_false] at e
    · exact hx.trans hx'.symm
    · exact absurd (e ▸ hb) fresh
    · exact absurd (e ▸ ha) fresh
    · exact e

/-- A parameter may get a name that is not in use. -/
lemma fits_single {d : Definition} {x y : String} (param : x ∈ d.params) (binds : isRest x = false)
    (binds' : isRest y = false) (fresh : y ∉ d.names) : (single x y d.names fresh).Fits d where
  covers _ := id
  rest z _ := by
    by_cases h : z = x
    · simp only [single, h, if_true, binds, binds']
    · simp only [single, h, if_false]
  moved z _ := by
    by_cases h : z = x
    · exact .inr (h ▸ ⟨param, binds⟩)
    · exact .inl (if_neg h)

end Renaming

/-- The function with one parameter renamed, wherever its variables occur. -/
def Definition.renameParam (d : Definition) (x y : String) : Definition :=
  d.rename fun z => if z = x then y else z

section

variable {d : Definition} {x y : String} {before after : List Definition}

/-- The functions of a script, with one parameter of one of them renamed. -/
lemma functions_renameParam (param : x ∈ d.params) (binds : isRest x = false)
    (binds' : isRest y = false) (fresh : y ∉ d.names) :
    List.Forall₂ (Function.Rewritten id)
      (Host.builtins ++ (before ++ d :: after).map Definition.toFunction)
      (Host.builtins ++ (before ++ d.renameParam x y :: after).map Definition.toFunction) := by
  have same (definitions : List Definition) :
      List.Forall₂ (Function.Rewritten id) (definitions.map Definition.toFunction)
        (definitions.map Definition.toFunction) := by
    refine List.forall₂_same.mpr fun f mem => ?_
    obtain ⟨e, -, rfl⟩ := List.mem_map.mp mem
    exact Function.rewritten_self e
  have moved : d.toFunction.Rewritten id (d.renameParam x y).toFunction := by
    have rewritten := Function.Rewritten.script (φ := id) _
      (Renaming.fits_single param binds binds' fresh)
    rwa [Definition.relabel_id] at rewritten
  rw [List.map_append, List.map_append, List.map_cons, List.map_cons]
  exact List.rel_append (List.forall₂_same.mpr fun f => .builtin)
    (List.rel_append (same before) (.cons moved (same after)))

/-- A parameter may be renamed in its function to a name that does not occur there, also if either
name is a global or a variable of other functions: the run shows the same. -/
theorem run_rename_param (m : Machine) (limits : Limits) (fuel : Nat) {script : Script}
    (functions : script.functions = before ++ d :: after) (param : x ∈ d.params)
    (binds : isRest x = false) (binds' : isRest y = false) (fresh : y ∉ d.names) :
    (m.run limits fuel builtinRoot
      { script with functions := before ++ d.renameParam x y :: after }).map shown =
    (m.run limits fuel builtinRoot script).map shown := by
  nth_rewrite 2 [← shownAt_id]
  refine run_shows id m limits fuel (relabelBlock_id _).symm (fun name => ?_)
    (List.map_id script.warnings).symm
  rw [functions]
  exact Function.rel_find? Function.Rewritten.name (functions_renameParam param binds binds' fresh)
    name

end

/-- A variable as a formula. -/
def variableFormula (name : String) : Formula := ⟨name, .ok (.ref ⟨.identifier, name, none, 1⟩)⟩

/-- The call of a function with one variable. -/
def callWith (line : Nat) (name argument : String) : Statement :=
  .plain line (.compute ⟨name, .ok (.call ⟨.identifier, name, none, 1⟩
    [.ref ⟨.identifier, argument, none, 1⟩])⟩)

/-- A function that shows its parameter, and once more after it has assigned to it. -/
def fade : Definition where
  name := "fade"
  params := ["x"]
  body :=
    [callWith 5 "debug" "x",
      .branch 6 (variableFormula "x")
        [.plain 7 (.assign "x" .assign (variableFormula "null")), callWith 8 "fade" "x"] none]

/-- A script with a global of the same name. -/
def fading : Script where
  block := [.plain 1 (.declare "x" (some (variableFormula "true"))), callWith 2 "fade" "x",
    callWith 3 "debug" "x"]
  functions := [fade]
  warnings := []

/-- The parameter takes the name of a global, and both globals stay what they are. -/
theorem run_rename_param_fading :
    fading.functions = [] ++ fade :: [] ∧ "x" ∈ fade.params ∧ isRest "x" = false ∧
    isRest "PI" = false ∧ "PI" ∉ fade.names ∧
    (Engine.quiet.machine.run Limits.default 3 builtinRoot
      { fading with functions := [] ++ fade.renameParam "x" "PI" :: [] }).map (·.2.console.lines) =
        some #["true", "", "true"] := by
  have functions : fading.functions = [] ++ fade :: [] := rfl
  have param : "x" ∈ fade.params := by decide
  have binds : isRest "x" = false := by decide +kernel
  have binds' : isRest "PI" = false := by decide +kernel
  have fresh : "PI" ∉ fade.names := by decide
  refine ⟨functions, param, binds, binds', fresh, ?_⟩
  have same := run_rename_param Engine.quiet.machine Limits.default 3 functions param binds
    binds' fresh
  have printed := congrArg (Option.map (·.2.1.lines)) same
  rw [Option.map_map, Option.map_map] at printed
  refine printed.trans ?_
  decide +kernel

end Linework
