import Mathlib.Data.List.Forall2
import Linework.Proofs.Mirroring

/-!
# Comparing the runs of two scripts

Two scripts run alike if the statements of one are those of the other on other lines, and so are
the functions of each name, in which the variables may have other names too. Different names have
to stay different and only parameters change. The frames of the two runs then hold the same values
under different names, while the globals are the same (`Renaming.Links`). Machines with linked
scopes mirror each other (`Machine.run_rewritten`), since no function sees a frame but its own, and
since nothing is ever decided by a line.
-/

namespace Linework

/-- The parameters, variables, declared names and assigned names of a function. -/
def Definition.names (d : Definition) : List String :=
  d.params ++ (statements d.body).flatMap Statement.names

/-- A declaration leaves no name unbound. -/
lemma Frame.isSome_declare {f : Frame} {z : String} (bound : (f.get? z).isSome) (name : String)
    (v : Value) : ((f.declare name v).get? z).isSome := by
  rw [Frame.get?_declare]
  split
  · rfl
  · exact bound

/-- A change of some names that keeps different names different. -/
structure Renaming where
  new : String → String
  covers : String → Prop
  injective {a b : String} : covers a → covers b → new a = new b → a = b

namespace Renaming

/-- Nothing changes. -/
def refl : Renaming := ⟨id, fun _ => True, fun _ _ => id⟩

/-- Whether a renaming is one for a function: of all its names, only parameters that take an
argument change. -/
structure Fits (ρ : Renaming) (d : Definition) : Prop where
  covers : ∀ z ∈ d.names, ρ.covers z
  rest : ∀ z ∈ d.params, isRest (ρ.new z) = isRest z
  moved : ∀ z, ρ.covers z → ρ.new z = z ∨ z ∈ d.params ∧ isRest z = false

/-- A function fits its own names. -/
lemma fits_refl (d : Definition) : refl.Fits d :=
  ⟨fun _ _ => trivial, fun _ _ => rfl, fun _ _ => .inl rfl⟩

/-- Two frames with the same values under the old and the new names. -/
def SameValues (ρ : Renaming) (f f' : Frame) : Prop :=
  ∀ z, ρ.covers z → f'.get? (ρ.new z) = f.get? z

/-- The frames before the root: those of a call, in which all changed names are bound, or none, if
no name changes. -/
inductive LinksOwn (ρ : Renaming) : Option Frame → Option Frame → Prop where
  | globals (fixed : ∀ z, ρ.covers z → ρ.new z = z) : LinksOwn ρ none none
  | call {f f' : Frame} (functions : f.functions = []) (functions' : f'.functions = [])
      (values : ρ.SameValues f f')
      (bound : ∀ z, ρ.covers z → ρ.new z = z ∨ (f.get? z).isSome) : LinksOwn ρ (some f) (some f')

end Renaming

/-- The functions of two runs: the same built-in function, or one with other variables and on other
lines. -/
inductive Function.Rewritten (φ : Nat → Nat) : Function → Function → Prop where
  | builtin {f : Function} (h : f ∈ Host.builtins) : Rewritten φ f f
  | script (ρ : Renaming) {d : Definition} (fits : ρ.Fits d) :
    Rewritten φ d.toFunction ((d.rename ρ.new).relabel φ).toFunction

/-- Functions that correspond have the same name. -/
lemma Function.Rewritten.name {φ : Nat → Nat} {f f' : Function} (h : f.Rewritten φ f') :
    f'.name = f.name := by
  cases h <;> rfl

/-- A function that is only on other lines. -/
lemma Function.rewritten_relabel (φ : Nat → Nat) (d : Definition) :
    d.toFunction.Rewritten φ (d.relabel φ).toFunction := by
  have rewritten := Function.Rewritten.script (φ := φ) .refl (Renaming.fits_refl d)
  rwa [show d.rename Renaming.refl.new = d from d.rename_id] at rewritten

/-- A function that is not changed at all. -/
lemma Function.rewritten_self (d : Definition) : d.toFunction.Rewritten id d.toFunction := by
  have rewritten := Function.rewritten_relabel id d
  rwa [d.relabel_id] at rewritten

/-- Of functions that correspond one by one, those of a name correspond. -/
lemma Function.rel_find? {R : Function → Function → Prop} {fs fs' : List Function}
    (names : ∀ {f f'}, R f f' → f'.name = f.name) (h : List.Forall₂ R fs fs') (name : String) :
    Option.Rel R (fs.find? (·.name = name)) (fs'.find? (·.name = name)) := by
  induction h with
  | nil => exact .none
  | @cons f f' fs fs' related _ ih =>
    rw [List.find?_cons, List.find?_cons, names related]
    split
    · exact .some related
    · exact ih

/-- How two runs are compared: their lines correspond, each has a root of its own, and there may
have been other output before. -/
structure Correspondence where
  lines : Nat → Nat
  root : Nat
  root' : Nat
  before : Array String
  before' : Array String

/-- Roots with the same values, and functions that correspond. -/
structure Frame.Rewritten (φ : Nat → Nat) (f f' : Frame) : Prop where
  values : f'.values = f.values
  functions (name : String) :
    Option.Rel (Function.Rewritten φ) (f.function? name) (f'.function? name)

/-- The same values are found. -/
lemma Frame.Rewritten.get? {φ : Nat → Nat} {f f' : Frame} (h : f.Rewritten φ f') (name : String) :
    f'.get? name = f.get? name :=
  congrArg (List.lookup name) h.values

/-- A declaration on both sides. -/
lemma Frame.Rewritten.declare {φ : Nat → Nat} {f f' : Frame} (h : f.Rewritten φ f')
    (name : String) (value : Value) : (f.declare name value).Rewritten φ (f'.declare name value) :=
  ⟨congrArg (Bindings.put name value) h.values, h.functions⟩

namespace Renaming

/-- Scopes that are the same up to a renaming of what is local. -/
structure Links (ρ : Renaming) (c : Correspondence) (s s' : Scope) : Prop where
  here : s.here = c.root
  here' : s'.here = c.root'
  roots : ∃ f f', s.contexts.HasRoot c.root f ∧ s'.contexts.HasRoot c.root' f' ∧
    f.Rewritten c.lines f'
  own : ρ.LinksOwn s.own s'.own

variable {ρ : Renaming} {c : Correspondence} {f f' : Frame} {s s' : Scope} {z : String}

/-- A declaration under the old and the new name. -/
lemma SameValues.declare (h : ρ.SameValues f f') (covered : ρ.covers z) (v : Value) :
    ρ.SameValues (f.declare z v) (f'.declare (ρ.new z) v) := by
  intro other covers
  rw [Frame.get?_declare, Frame.get?_declare]
  by_cases same : other = z
  · rw [if_pos same, if_pos (congrArg ρ.new same)]
  · rw [if_neg same, if_neg fun e => same (ρ.injective covers covered e)]
    exact h other covers

/-- The arguments of a call under the old and the new names. -/
lemma SameValues.bindParams {params : List String} (covered : ∀ z ∈ params, ρ.covers z)
    (rest : ∀ z ∈ params, isRest (ρ.new z) = isRest z) (arguments : List Value)
    (h : ρ.SameValues f f') :
    ρ.SameValues (bindParams f params arguments) (bindParams f' (params.map ρ.new) arguments) := by
  induction params generalizing f f' arguments with
  | nil => exact h
  | cons param params ih =>
    obtain ⟨own, covered⟩ := List.forall_mem_cons.mp covered
    obtain ⟨same, rest⟩ := List.forall_mem_cons.mp rest
    refine ih covered rest arguments.tail ?_
    rw [same]
    split
    · exact h
    · exact h.declare own _

/-- A parameter that takes an argument is bound in the frame of the call. -/
lemma isSome_bindParams {params : List String} (arguments : List Value)
    (h : (f.get? z).isSome ∨ z ∈ params ∧ isRest z = false) :
    ((bindParams f params arguments).get? z).isSome := by
  induction params generalizing f arguments with
  | nil => exact h.resolve_right fun ⟨mem, _⟩ => List.not_mem_nil mem
  | cons param params ih =>
    refine ih arguments.tail ?_
    rcases h with bound | ⟨mem, binds⟩
    · left
      split
      · exact bound
      · exact Frame.isSome_declare bound _ _
    · rcases List.mem_cons.mp mem with rfl | mem
      · left
        rw [binds, if_neg Bool.false_ne_true, Frame.get?_declare, if_pos rfl]
        rfl
      · exact .inr ⟨mem, binds⟩

/-- The frames of a call of a function and of the renamed one. -/
lemma Fits.linksOwn {d : Definition} (fits : ρ.Fits d) (arguments : List Value) :
    ρ.LinksOwn (some (d.toFunction.frame arguments))
      (some ((d.rename ρ.new).toFunction.frame arguments)) := by
  refine .call (functions_bindParams _ _ _) (functions_bindParams _ _ _) ?_ ?_
  · refine SameValues.bindParams (fun z mem => ?_) fits.rest arguments fun _ _ => rfl
    exact fits.covers z (List.mem_append_left _ mem)
  · exact fun z covered => (fits.moved z covered).imp_right fun param =>
      isSome_bindParams arguments (.inr param)

namespace Links

/-- A changed name is never looked up among the globals. -/
lemma get? (h : ρ.Links c s s') (covered : ρ.covers z) :
    s'.get? (ρ.new z) = s.get? z ∧ (s.get? z = none → ρ.new z = z) := by
  obtain ⟨here, here', ⟨f, f', root, root', same⟩, own⟩ := h
  obtain ⟨frame, contexts, _⟩ := s
  obtain ⟨frame', contexts', _⟩ := s'
  cases here
  cases here'
  simp only [Scope.get?, root.get?, root'.get?]
  cases own with
  | globals fixed =>
    rw [fixed z covered, same.get?]
    exact ⟨rfl, fun _ => rfl⟩
  | @call f f' _ _ values bound =>
    simp only [Option.bind_some, values z covered]
    rcases bound z covered with fixed | bound
    · rw [fixed, same.get?]
      exact ⟨rfl, fun _ => rfl⟩
    · obtain ⟨v, e⟩ := Option.isSome_iff_exists.mp bound
      rw [e]
      exact ⟨rfl, nofun⟩

/-- A declaration is local on both sides or on neither. -/
lemma declare (h : ρ.Links c s s') (covered : ρ.covers z) (v : Value) :
    ρ.Links c (s.declare z v) (s'.declare (ρ.new z) v) := by
  obtain ⟨here, here', ⟨f, f', root, root', same⟩, own⟩ := h
  obtain ⟨frame, contexts, _⟩ := s
  obtain ⟨frame', contexts', _⟩ := s'
  cases here
  cases here'
  cases own with
  | globals fixed =>
    rw [fixed z covered]
    exact ⟨rfl, rfl, ⟨_, _, root.declare z v, root'.declare z v, same.declare z v⟩, .globals fixed⟩
  | call none none' values bound =>
    refine ⟨rfl, rfl, ⟨f, f', root, root', same⟩, .call none none' (values.declare covered v) ?_⟩
    exact fun other covers => (bound other covers).imp_right fun bound =>
      Frame.isSome_declare bound _ _

/-- An assignment finds its target in both scopes or in neither, and then under the same name. -/
lemma assign? (h : ρ.Links c s s') (covered : ρ.covers z) (v : Value) :
    Option.Rel (ρ.Links c) (s.assign? z v) (s'.assign? (ρ.new z) v) ∧
      (s.assign? z v = none → ρ.new z = z) := by
  obtain ⟨here, here', ⟨f, f', root, root', same⟩, own⟩ := h
  obtain ⟨frame, contexts, _⟩ := s
  obtain ⟨frame', contexts', _⟩ := s'
  cases here
  cases here'
  -- what happens if the name is not bound in the frames
  have globally {frame frame' : Option Frame} (own : ρ.LinksOwn frame frame')
      (free : ∀ g ∈ frame, (g.get? z).isSome = false)
      (free' : ∀ g ∈ frame', (g.get? z).isSome = false) :
      Option.Rel (ρ.Links c) (Scope.assign? ⟨frame, contexts, c.root⟩ z v)
        (Scope.assign? ⟨frame', contexts', c.root'⟩ z v) := by
    rw [Scope.assign?_of_root (s := ⟨frame, contexts, c.root⟩) root free,
      Scope.assign?_of_root (s := ⟨frame', contexts', c.root'⟩) root' free', same.get?]
    split
    · exact .some ⟨rfl, rfl, ⟨_, _, root.declare z v, root'.declare z v, same.declare z v⟩, own⟩
    · exact .none
  cases own with
  | globals fixed =>
    rw [fixed z covered]
    refine ⟨globally (.globals fixed) ?_ ?_, fun _ => rfl⟩ <;>
    · rintro _ ⟨⟩
  | @call g g' none none' values bound =>
    by_cases inFrame : (g.get? z).isSome
    · have inFrame' : (g'.get? (ρ.new z)).isSome := by rwa [values z covered]
      rw [Scope.assign?_of_own rfl inFrame, Scope.assign?_of_own rfl inFrame']
      refine ⟨.some ⟨rfl, rfl, ⟨f, f', root, root', same⟩,
        .call none none' (values.declare covered v) ?_⟩, fun missing => ?_⟩
      · exact fun other covers => (bound other covers).imp_right fun bound =>
          Frame.isSome_declare bound _ _
      · cases missing
    · -- a name that is not bound in the frame has not changed, so that the globals decide
      have fixed := (bound z covered).resolve_right inFrame
      have free : (g.get? z).isSome = false := Bool.not_eq_true _ ▸ inFrame
      have free' : (g'.get? z).isSome = false := by
        rw [← free, ← values z covered, fixed]
      rw [fixed]
      refine ⟨globally (.call none none' values bound) ?_ ?_, fun _ => rfl⟩
      · rintro _ ⟨⟩
        exact free
      · rintro _ ⟨⟩
        exact free'

/-- No function is local, so that corresponding definitions are found. -/
lemma function? (h : ρ.Links c s s') (name : String) :
    Option.Rel (Function.Rewritten c.lines) (s.function? name) (s'.function? name) := by
  obtain ⟨here, here', ⟨f, f', root, root', same⟩, own⟩ := h
  obtain ⟨frame, contexts, _⟩ := s
  obtain ⟨frame', contexts', _⟩ := s'
  cases here
  cases here'
  simp only [Scope.function?, root.function?, root'.function?]
  cases own with
  | globals fixed => exact same.functions name
  | call none none' values bound =>
    simp only [Option.bind_some, Frame.function?, none, none']
    exact same.functions name

/-- In the body of a function both runs are before their roots. -/
lemma enter {ρ' : Renaming} (h : ρ.Links c s s') {own own' : Option Frame}
    (owns : ρ'.LinksOwn own own') :
    ρ'.Links c ⟨own, s.contexts, s.root⟩ ⟨own', s'.contexts, s'.root⟩ := by
  obtain ⟨here, here', ⟨f, f', root, root', same⟩, -⟩ := h
  refine ⟨?_, ?_, ⟨f, f', root, root', same⟩, owns⟩
  · rw [Scope.root, here, root.rootOf]
  · rw [Scope.root, here', root'.rootOf]

/-- After a call the frames of the callers are back. -/
lemma leave {ρ' : Renaming} {t t' : Scope} (h : ρ.Links c s s') (h' : ρ'.Links c t t') :
    ρ.Links c ⟨s.own, t.contexts, s.here⟩ ⟨s'.own, t'.contexts, s'.here⟩ :=
  ⟨h.here, h.here', h'.roots, h.own⟩

end Links

/-- The renaming covers the names of a statement, apart from its inner blocks. -/
def Covers (ρ : Renaming) (s : Statement) : Prop := ∀ z ∈ s.names, ρ.covers z

namespace Covers

variable {t : Statement}

/-- The variables of the formula are covered. -/
lemma formula (h : ρ.Covers t) {f : Formula} (own : t.formula? = some f) :
    ∀ z ∈ f.refs, ρ.covers z := by
  intro z mem
  refine h z (List.mem_append_left _ (List.mem_append_left _ ?_))
  rw [own]
  exact mem

/-- The assigned name is covered. -/
lemma target (h : ρ.Covers t) (own : t.target? = some z) : ρ.covers z := by
  refine h z (List.mem_append_left _ (List.mem_append_right _ ?_))
  rw [own]
  exact List.mem_singleton_self z

/-- The declared name is covered. -/
lemma declared (h : ρ.Covers t) (own : t.declared? = some z) : ρ.covers z := by
  refine h z (List.mem_append_right _ ?_)
  rw [own]
  exact List.mem_singleton_self z

end Covers

end Renaming

/-- Machines at the same place of two runs. The log and what only hosts use may differ. -/
structure Machine.Rewritten (c : Correspondence) (ρ : Renaming) (m m' : Machine) : Prop where
  scope : ρ.Links c m.scope m'.scope
  budget : m'.budget = m.budget
  diagnostics : m'.diagnostics = m.diagnostics.map (Diagnostic.relabel c.lines)
  random : m'.random = m.random
  clock : m'.clock = m.clock
  watch : m'.watch = m.watch
  broken : m'.console.broken = m.console.broken
  output : ∃ since, m.console.lines = c.before ++ since ∧ m'.console.lines = c.before' ++ since

namespace Machine.Rewritten

variable {c : Correspondence} {ρ ρ' : Renaming} {m m' n n' : Machine} {z : String} {line : Nat}

/-- The scopes may be exchanged. -/
lemma rescope (h : m.Rewritten c ρ m') {s s' : Scope} (scope : ρ'.Links c s s') :
    Machine.Rewritten c ρ' { m with scope := s } { m' with scope := s' } :=
  ⟨scope, h.budget, h.diagnostics, h.random, h.clock, h.watch, h.broken, h.output⟩

/-- A call begins on both sides. -/
lemma enter (h : m.Rewritten c ρ m') {frame frame' : Frame}
    (owns : ρ'.LinksOwn (some frame) (some frame')) :
    (m.enter frame).Rewritten c ρ' (m'.enter frame') :=
  ⟨h.scope.enter owns, congrArg (fun b : Budget => { b with depth := b.depth + 1 }) h.budget,
    h.diagnostics, h.random, h.clock, h.watch, h.broken, h.output⟩

/-- A call ends on both sides. -/
lemma leave (h : m.Rewritten c ρ m') (h' : n.Rewritten c ρ' n') :
    (m.leave n).Rewritten c ρ (m'.leave n') :=
  ⟨h.scope.leave h'.scope, congrArg Budget.closeCall h'.budget, h'.diagnostics, h'.random, h'.clock,
    h'.watch, h'.broken, h'.output⟩

/-- What has nothing to do with the scope mirrors itself. -/
lemma simulates (c : Correspondence) (ρ : Renaming) :
    Simulates c.lines (Machine.Rewritten c ρ) where
  budget h := h.budget
  watch h := h.watch
  random h := h.random
  clock h := h.clock
  broken h := h.broken
  setLine _ h :=
    ⟨h.scope, h.budget, h.diagnostics, h.random, h.clock, h.watch, h.broken, h.output⟩
  setBudget _ h := ⟨h.scope, rfl, h.diagnostics, h.random, h.clock, h.watch, h.broken, h.output⟩
  setRandom _ h := ⟨h.scope, h.budget, h.diagnostics, rfl, h.clock, h.watch, h.broken, h.output⟩
  setClock _ h := ⟨h.scope, h.budget, h.diagnostics, h.random, rfl, h.watch, h.broken, h.output⟩
  log _ h := ⟨h.scope, h.budget, h.diagnostics, h.random, h.clock, h.watch, h.broken, h.output⟩
  print text h := by
    obtain ⟨since, e, e'⟩ := h.output
    refine ⟨h.scope, h.budget, h.diagnostics, h.random, h.clock, h.watch, h.broken,
      since.push text, ?_, ?_⟩
    · simp only [e, Array.append_push]
    · simp only [e', Array.append_push]
  report d h := by
    refine ⟨h.scope, h.budget, ?_, h.random, h.clock, h.watch, h.broken, h.output⟩
    simp only [h.diagnostics, Array.map_push]

/-- A variable is looked up under its old and its new name. -/
lemma lookup (covered : ρ.covers z) :
    Mirrors c.lines (OnLine c.lines (Machine.Rewritten c ρ) (some line)) (Run.lookup z)
      (Run.lookup (ρ.new z)) := by
  refine .read fun m m' same => ?_
  obtain ⟨found, unbound⟩ := same.1.scope.get? covered
  simp only [found]
  split
  · exact .pure _
  · next missing =>
    rw [unbound missing]
    exact ((simulates c ρ).diagnose _).bind fun _ => .pure _

/-- A variable is declared under its old and its new name. -/
lemma declare (covered : ρ.covers z) (v : Value) :
    Mirrors c.lines (OnLine c.lines (Machine.Rewritten c ρ) (some line)) (Run.declare z v)
      (Run.declare (ρ.new z) v) :=
  Simulates.update (fun _ _ same => same.rescope (same.scope.declare covered v)) (fun _ => rfl)
    fun _ => rfl

/-- A variable is changed under its old and its new name. -/
lemma assign (covered : ρ.covers z) (v : Value) :
    Mirrors c.lines (OnLine c.lines (Machine.Rewritten c ρ) (some line)) (Run.assign z v)
      (Run.assign (ρ.new z) v) := by
  refine .read fun m m' same => ?_
  obtain ⟨changed, missing⟩ := same.1.scope.assign? covered v
  generalize m.scope.assign? z v = t, m'.scope.assign? (ρ.new z) v = t' at changed missing
  cases changed with
  | none =>
    rw [missing rfl]
    exact (simulates c ρ).diagnose _
  | some linked =>
    exact Simulates.update (fun _ _ same => same.rescope linked) (fun _ => rfl) fun _ => rfl

/-- A variable is changed by an operator under its old and its new name. -/
lemma store (covered : ρ.covers z) (op : AssignOp) (v : Value) :
    Mirrors c.lines (OnLine c.lines (Machine.Rewritten c ρ) (some line)) (Run.store z op v)
      (Run.store (ρ.new z) op v) := by
  unfold Run.store
  split
  · exact assign covered v
  · refine .read fun m m' same => ?_
    obtain ⟨found, unbound⟩ := same.1.scope.get? covered
    simp only [found]
    split
    · exact assign covered _
    · next missing =>
      rw [unbound missing]
      exact (simulates c ρ).diagnose _

end Machine.Rewritten

section

variable {c : Correspondence} {ρ : Renaming} {limits : Limits} {invoke : Invoke} {fuel : Nat}

/-- Calls that mirror themselves, whatever is renamed in the frame of the caller. -/
def Invoke.Mirrored (c : Correspondence) (invoke : Invoke) : Prop :=
  ∀ ρ line name arguments,
    Mirrors c.lines (OnLine c.lines (Machine.Rewritten c ρ) (some line))
      (invoke name arguments) (invoke name arguments)

/-- A formula with the old and with the new names. -/
lemma mirrors_formula (calls : invoke.Mirrored c) (line : Nat) (f : Formula)
    (h : ∀ z ∈ f.refs, ρ.covers z) :
    Mirrors c.lines (OnLine c.lines (Machine.Rewritten c ρ) (some line)) (f.eval invoke)
      ((f.rename ρ.new).eval invoke) := by
  have related : Relates (fun _ => Mirrors c.lines
      (OnLine c.lines (Machine.Rewritten c ρ) (some line))) ρ.new invoke invoke f.refs f.callees :=
    { pure := .pure
      bind := .bind
      draw := (Machine.Rewritten.simulates c ρ).draw
      lookup := fun z mem => Machine.Rewritten.lookup (h z mem)
      call := fun name _ => calls ρ line name }
  exact related.formula fun _ _ => (Machine.Rewritten.simulates c ρ).diagnose _

/-- A block with the old and with the new names, and on corresponding lines. -/
lemma mirrors_block (calls : invoke.Mirrored c) (b : Block)
    (covers : ∀ t ∈ statements b, ρ.Covers t) :
    Mirrors c.lines (OnLine c.lines (Machine.Rewritten c ρ) none)
      (executeBlock limits invoke fuel b)
      (executeBlock limits invoke fuel (relabelBlock c.lines (renameBlock ρ.new b))) := by
  let p : Pairing := ⟨ρ.new, c.lines, limits, limits, invoke, invoke, fuel, fuel⟩
  have simulates := Machine.Rewritten.simulates c ρ
  have carries : p.Carries _ := simulates.carries rfl
  refine carries.block b fun t mem => ?_
  have own := covers t mem
  exact
    { spend := simulates.spend limits
      formula := fun f mem => mirrors_formula calls t.line f (own.formula mem)
      declare := fun _ mem v => Machine.Rewritten.declare (own.declared mem) v
      store := fun _ mem op v => Machine.Rewritten.store (own.target mem) op v
      yields := fun v => .throw (.yield v t.line)
      loop := fun _ test test' words body body' tests bodies =>
        carries.rounds (Simulates.loops rfl) words test test' body body' (simulates.spend limits)
          tests bodies }

/-- A call of corresponding functions. -/
lemma Invoke.Mirrored.call (calls : invoke.Mirrored c) {f f' : Function}
    (h : f.Rewritten c.lines f') (line : Nat) (arguments : List Value) :
    Mirrors c.lines (OnLine c.lines (Machine.Rewritten c ρ) (some line))
      (f.call limits invoke fuel arguments) (f'.call limits invoke fuel arguments) := by
  have simulates := Machine.Rewritten.simulates c ρ
  cases h with
  | builtin builtin => exact simulates.call_builtin builtin limits invoke invoke fuel arguments
  | @script inner d fits =>
    refine (simulates.record (.calling d.name arguments.length)).bind fun _ => ?_
    refine simulates.runBody (fun same => same.enter (fits.linksOwn arguments))
      (fun same same' => same.leave same') (mirrors_block calls d.body ?_)
    intro t mem z own
    exact fits.covers z (List.mem_append_right _ (List.mem_flatMap.mpr ⟨t, mem, own⟩))

end

/-- All calls mirror themselves. -/
lemma mirrored_callByName (c : Correspondence) (limits : Limits) (fuel : Nat) :
    (callByName limits fuel).Mirrored c := by
  -- the renaming of the caller varies along the induction: inside of a body it is the body's own
  induction fuel with
  | zero => exact fun _ _ _ _ => .outOfFuel
  | succ fuel ih =>
    intro ρ line name arguments
    refine .read fun m m' same => ?_
    have found := same.1.scope.function? name
    generalize m.scope.function? name = f, m'.scope.function? name = f' at found
    cases found with
    | none => exact ((Machine.Rewritten.simulates c ρ).diagnose _).bind fun _ => .pure _
    | some rewritten => exact ih.call rewritten line arguments

section

variable {c : Correspondence} {m m' : Machine} {script script' : Script}

/-- Runs start at the same place if the machines differ in nothing that a run looks at, and the
scripts have corresponding functions under all names. -/
lemma rewritten_restart (root : c.root = m.scope.contexts.length)
    (root' : c.root' = m'.scope.contexts.length)
    (functions : ∀ name, Option.Rel (Function.Rewritten c.lines)
      ((Host.builtins ++ script.functions.map Definition.toFunction).find? (·.name = name))
      ((Host.builtins ++ script'.functions.map Definition.toFunction).find? (·.name = name)))
    (warnings : script'.warnings = script.warnings.map (Diagnostic.relabel c.lines))
    (random : m'.random = m.random) (clock : m'.clock = m.clock) (watch : m'.watch = m.watch)
    (broken : m'.console.broken = m.console.broken) (before : m.console.lines = c.before)
    (before' : m'.console.lines = c.before') :
    (m.restart builtinRoot script).Rewritten c .refl (m'.restart builtinRoot script') where
  scope :=
    { here := root.symm
      here' := root'.symm
      roots := by
        rw [root, root']
        exact ⟨_, _, Forest.hasRoot_make _ _, Forest.hasRoot_make _ _, ⟨rfl, functions⟩⟩
      own := .globals fun _ _ => rfl }
  budget := rfl
  diagnostics := by
    simp only [Machine.restart, warnings, List.map_toArray]
  random := random
  clock := clock
  watch := watch
  broken := broken
  output :=
    ⟨#[], by rw [Array.append_empty]; exact before, by rw [Array.append_empty]; exact before'⟩

/-- Runs of corresponding scripts that start at the same place end together, at the same place and
with corresponding results. -/
lemma Machine.run_rewritten (limits : Limits) (fuel : Nat)
    (start : (m.restart builtinRoot script).Rewritten c .refl (m'.restart builtinRoot script'))
    (blocks : script'.block = relabelBlock c.lines script.block) :
    Option.Rel
      (fun p p' => p'.1 = p.1.mapError (RunError.relabel c.lines) ∧ p.2.Rewritten c .refl p'.2)
      (m.run limits fuel builtinRoot script) (m'.run limits fuel builtinRoot script') := by
  have mirrors : Mirrors c.lines (OnLine c.lines (Machine.Rewritten c .refl) none)
      (execute limits fuel script.block) (execute limits fuel script'.block) := by
    have unchanged : renameBlock Renaming.refl.new script.block = script.block := renameBlock_id _
    rw [blocks, ← unchanged]
    nth_rewrite 1 [unchanged]
    exact mirrors_block (mirrored_callByName c limits fuel) script.block fun _ _ _ _ => trivial
  rw [Machine.run, Machine.run]
  obtain ⟨e, e'⟩ | ⟨r, n, n', e, e', same, -⟩ := mirrors.cases ⟨start, nofun⟩
  · rw [e, e']
    exact .none
  · rw [e, e']
    refine .some ⟨Interrupt.resolve_relabel _ r, ?_⟩
    exact ⟨same.scope, same.budget, same.diagnostics, same.random, same.clock, same.watch,
      same.broken, same.output⟩

end

/-- What a run shows: its result, the output, the diagnostics, the steps and how far the random
numbers have been used. -/
def shown (p : Except RunError Value × Machine) :
    Except RunError Value × Console × Array Diagnostic × UInt64 × Feed Float :=
  (p.1, p.2.console, p.2.diagnostics, p.2.budget.steps, p.2.random)

/-- What a run shows, on other lines. -/
def shownAt (φ : Nat → Nat) (p : Except RunError Value × Machine) :
    Except RunError Value × Console × Array Diagnostic × UInt64 × Feed Float :=
  shown (p.1.mapError (RunError.relabel φ),
    { p.2 with diagnostics := p.2.diagnostics.map (Diagnostic.relabel φ) })

/-- On its own lines a run shows what it shows. -/
lemma shownAt_id : shownAt id = shown := by
  funext p
  have same : Diagnostic.relabel id = id := rfl
  rw [shownAt, RunError.mapError_relabel_id, same, Array.map_id]

/-- Corresponding scripts show the same on corresponding lines, if they run on the same machine. -/
lemma run_shows (φ : Nat → Nat) (m : Machine) (limits : Limits) (fuel : Nat)
    {script script' : Script} (blocks : script'.block = relabelBlock φ script.block)
    (functions : ∀ name, Option.Rel (Function.Rewritten φ)
      ((Host.builtins ++ script.functions.map Definition.toFunction).find? (·.name = name))
      ((Host.builtins ++ script'.functions.map Definition.toFunction).find? (·.name = name)))
    (warnings : script'.warnings = script.warnings.map (Diagnostic.relabel φ)) :
    (m.run limits fuel builtinRoot script').map shown =
      (m.run limits fuel builtinRoot script).map (shownAt φ) := by
  let c : Correspondence :=
    ⟨φ, m.scope.contexts.length, m.scope.contexts.length, m.console.lines, m.console.lines⟩
  have start : (m.restart builtinRoot script).Rewritten c .refl (m.restart builtinRoot script') :=
    rewritten_restart rfl rfl functions warnings rfl rfl rfl rfl rfl rfl
  have runs := Machine.run_rewritten limits fuel start blocks
  generalize m.run limits fuel builtinRoot script = r,
    m.run limits fuel builtinRoot script' = r' at runs
  cases runs with
  | none => rfl
  | @some p p' same =>
    obtain ⟨result, same⟩ := same
    obtain ⟨since, output, output'⟩ := same.output
    -- a console is what it has printed and whether it is broken
    have console : p'.2.console = p.2.console := by
      have lines : p'.2.console.lines = p.2.console.lines := output'.trans output.symm
      have broken := same.broken
      generalize p.2.console = o, p'.2.console = o' at lines broken
      cases o
      cases o'
      cases lines
      cases broken
      rfl
    refine congrArg some ?_
    simp only [shown, shownAt, result, console, same.diagnostics, same.budget, same.random]
    rfl

end Linework
