import Mathlib.Tactic.Lemma
import Mathlib.Data.List.Basic
import Linework.Scope.Forest

/-!
# Shadowing

Which contexts of a forest see a change. Every context looks for a name from itself upwards, so that
it sees the nearest binding on its chain; a binding is seen from all contexts below that have none
in between. `Linked.climb` is the induction that follows the parents.
-/

namespace Linework

namespace Forest

/-- What can be made of contexts: each has no parent, or one that is there before, and its frame may
change in any way later. -/
inductive Built : Forest → Prop where
  | nil :
    Built []
  | root {f} (frame : Frame) :
    Built f →
    Built (f.make frame none)
  | child {f p} (frame : Frame) :
    p < f.length →
    Built f →
    Built (f.make frame (some p))
  | update {f} (c : Nat) (g : Frame → Frame) :
    Built f →
    Built (f.update c g)

/-- The parent of a context. -/
def parent? (f : Forest) (c : Nat) : Option Nat := (f.context? c).bind (·.parent)

/-- The value that a context itself binds to a name. -/
def own? (f : Forest) (c : Nat) (name : String) : Option Value :=
  (f.context? c).bind (·.frame.get? name)

/-- Whether a context itself binds a name. -/
def binds (f : Forest) (c : Nat) (name : String) : Bool := (f.own? c name).isSome

/-- The context that holds the nearest binding of a name on the chain of a context. -/
def holder? (f : Forest) (c : Nat) (name : String) : Option Nat :=
  (f.chain c).find? (f.binds · name)

/-- The context `d` is at or below `c`, and none before `c` on its chain binds the name. -/
def Exposed (f : Forest) (name : String) (c d : Nat) : Prop :=
  c ∈ f.chain d ∧ ∀ e ∈ (f.chain d).takeWhile (· ≠ c), f.binds e name = false

instance (f : Forest) (name : String) (c d : Nat) : Decidable (f.Exposed name c d) :=
  inferInstanceAs (Decidable (_ ∧ _))

/-- Parents are older than their children, and every context knows the last one of its chain. -/
def Linked : Forest → Prop
  | [] => True
  | ctx :: older =>
    (∀ p ∈ ctx.parent, p < older.length) ∧ ctx.root = ctx.parent.map (top older) ∧ Linked older

section

variable {f newer older : Forest} {ctx : Context} {c d p : Nat} {g : Frame → Frame} {name : String}
  {value : Value}

/-- The numbers of contexts are those below the number of all contexts. -/
lemma context?_isSome : (f.context? c).isSome ↔ c < f.length := by
  induction f with
  | nil => simp [context?]
  | cons ctx older ih =>
    rw [context?, List.length_cons]
    split
    · next here => simp [here]
    · next other =>
      rw [ih]
      omega

/-- Every number below the number of all contexts has its context. -/
lemma exists_context (here : c < f.length) : ∃ ctx, f.context? c = some ctx :=
  Option.isSome_iff_exists.mp (context?_isSome.mpr here)

/-- Where a context stands in the list behind the forest. -/
lemma exists_split (found : f.context? c = some ctx) :
    ∃ newer older : Forest, f = newer ++ ctx :: older ∧ c = older.length := by
  induction f with
  | nil => cases found
  | cons latest older ih =>
    rw [context?] at found
    split at found
    · next here =>
      cases found
      exact ⟨[], older, rfl, here⟩
    · obtain ⟨newer, rest, rfl, here⟩ := ih found
      exact ⟨latest :: newer, rest, rfl, here⟩

/-! Newer contexts do not matter to older ones. -/

/-- An older context is not the latest one. -/
lemma ne_length_append (here : c < older.length) : c ≠ (newer ++ older).length := by
  rw [List.length_append]
  omega

/-- The chain of an older context. -/
lemma chain_append (here : c < older.length) : chain (newer ++ older) c = older.chain c := by
  induction newer with
  | nil => rfl
  | cons ctx newer ih => rw [List.cons_append, chain, if_neg (ne_length_append here), ih]

/-- What an older context sees. -/
lemma get?_append (here : c < older.length) :
    get? (newer ++ older) c name = older.get? c name := by
  induction newer with
  | nil => rfl
  | cons ctx newer ih => rw [List.cons_append, get?, if_neg (ne_length_append here), ih]

/-- The function of a name as an older context sees it. -/
lemma function?_append (here : c < older.length) :
    function? (newer ++ older) c name = older.function? c name := by
  induction newer with
  | nil => rfl
  | cons ctx newer ih => rw [List.cons_append, function?, if_neg (ne_length_append here), ih]

/-- An assignment in an older context. -/
lemma set_append (here : c < older.length) :
    set (newer ++ older) c name value = (older.set c name value).map id (newer ++ ·) := by
  induction newer with
  | nil => rfl
  | cons ctx newer ih =>
    rw [List.cons_append, set, if_neg (ne_length_append here), ih]
    rfl

/-- A change of an older context. -/
lemma update_append (here : c < older.length) :
    update c g (newer ++ older) = newer ++ older.update c g := by
  induction newer with
  | nil => rfl
  | cons ctx newer ih =>
    rw [List.cons_append, update, if_neg (ne_length_append here), ih, List.cons_append]

/-- The older contexts of a linked forest are linked. -/
lemma Linked.of_append (linked : Linked (newer ++ older)) : older.Linked := by
  induction newer with
  | nil => exact linked
  | cons ctx newer ih => exact ih linked.2.2

/-! What a context does, by what its parent does in the same forest. -/

/-- A parent has a smaller number than its child. -/
lemma Linked.parent_lt (linked : f.Linked) (found : f.context? c = some ctx)
    (parent : ctx.parent = some p) : p < c := by
  obtain ⟨newer, older, rfl, rfl⟩ := exists_split found
  exact linked.of_append.1 p parent

/-- The chain goes on with that of the parent. -/
lemma Linked.chain_eq (linked : f.Linked) (found : f.context? c = some ctx) :
    f.chain c = c :: ctx.parent.elim [] f.chain := by
  obtain ⟨newer, older, rfl, rfl⟩ := exists_split found
  rw [chain_append (Nat.lt_succ_self _), chain, if_pos rfl]
  cases parent : ctx.parent with
  | none => rfl
  | some p =>
    have earlier : p < older.length := linked.of_append.1 p parent
    rw [List.append_cons]
    exact congrArg _ (chain_append earlier).symm

/-- A name that is not bound here is looked up in the parent. -/
lemma Linked.get?_eq (linked : f.Linked) (found : f.context? c = some ctx) (name : String) :
    f.get? c name = (ctx.frame.get? name <|> ctx.parent.bind fun p => f.get? p name) := by
  obtain ⟨newer, older, rfl, rfl⟩ := exists_split found
  rw [get?_append (Nat.lt_succ_self _), get?, if_pos rfl]
  cases parent : ctx.parent with
  | none => rfl
  | some p =>
    have earlier : p < older.length := linked.of_append.1 p parent
    rw [List.append_cons, Option.bind_some, Option.bind_some, get?_append earlier]

/-- A name that is not bound here is assigned to in the parent. -/
lemma Linked.set_eq (linked : f.Linked) (found : f.context? c = some ctx) (name : String)
    (value : Value) :
    f.set c name value =
      if (ctx.frame.get? name).isSome then (true, f.declare c name value)
      else ctx.parent.elim (false, f) fun p => f.set p name value := by
  obtain ⟨newer, older, rfl, rfl⟩ := exists_split found
  rw [set_append (Nat.lt_succ_self _), set, if_pos rfl, declare, update_append (Nat.lt_succ_self _),
    update, if_pos rfl]
  split
  · rfl
  · cases parent : ctx.parent with
    | none => rfl
    | some p =>
      have earlier : p < older.length := linked.of_append.1 p parent
      rw [Option.elim_some, List.append_cons, set_append earlier]
      simp [Prod.map]

/-- The root of a context is the last context of its parent's chain. -/
lemma Linked.rootOf_eq (linked : f.Linked) (found : f.context? c = some ctx) :
    f.rootOf c = ctx.parent.elim c f.top := by
  obtain ⟨newer, older, rfl, rfl⟩ := exists_split found
  obtain ⟨earlier, root, -⟩ := linked.of_append
  rw [rootOf, found, Option.bind_some, root]
  cases parent : ctx.parent with
  | none => rfl
  | some p =>
    rw [Option.map_some, Option.getD_some, Option.elim_some, top, top, List.append_cons,
      chain_append (earlier p parent)]

/-- Up the chain of a context, as far as there are parents. -/
@[elab_as_elim]
lemma Linked.climb {motive : Nat → Prop} (linked : f.Linked) (c : Nat) (here : c < f.length)
    (step : ∀ c ctx, f.context? c = some ctx → (∀ p ∈ ctx.parent, motive p) → motive c) :
    motive c := by
  induction c using Nat.strongRecOn with
  | ind c ih =>
    obtain ⟨ctx, found⟩ := exists_context here
    apply step c ctx found
    intro p parent
    have earlier : p < c := linked.parent_lt found parent
    exact ih p earlier (Nat.lt_trans earlier here)

/-! A change of a frame. -/

/-- A change of a frame makes no context. -/
lemma length_update : (f.update c g).length = f.length := by
  induction f with
  | nil => rfl
  | cons ctx older ih =>
    rw [update]
    split
    · rfl
    · rw [List.length_cons, List.length_cons, ih]

/-- A change of a frame is one of that context only. -/
lemma context?_update : (f.update c g).context? d =
    if d = c then (f.context? d).map fun ctx => { ctx with frame := g ctx.frame }
    else f.context? d := by
  induction f with
  | nil => simp [update, context?]
  | cons ctx older ih =>
    rw [update]
    split
    · next here =>
      subst here
      by_cases same : d = older.length <;> simp [context?, same]
    · next other =>
      by_cases same : d = older.length
      · simp [context?, length_update, same, Ne.symm other]
      · simp [context?, length_update, same, ih]

/-- A change of a frame leaves the chains alone. -/
lemma chain_update : (f.update c g).chain d = f.chain d := by
  induction f generalizing d with
  | nil => rfl
  | cons ctx older ih =>
    rw [update]
    split
    · rfl
    · simp only [chain, length_update, ih]

/-- A change of a frame leaves the forest linked. -/
lemma Linked.update (linked : f.Linked) : (f.update c g).Linked := by
  induction f with
  | nil => trivial
  | cons ctx older ih =>
    obtain ⟨earlier, root, linked⟩ := linked
    have tops : top (Forest.update c g older) = top older := by
      funext p
      rw [top, top, chain_update]
    rw [Forest.update]
    split
    · exact ⟨earlier, root, linked⟩
    · rw [Linked, length_update, tops]
      exact ⟨earlier, root, ih linked⟩

/-- Every forest that can be made is linked. -/
lemma Built.linked (built : f.Built) : f.Linked := by
  induction built with
  | nil => trivial
  | root frame _ ih => exact ⟨nofun, rfl, ih⟩
  | child frame earlier _ ih =>
    refine ⟨?_, rfl, ih⟩
    rintro p ⟨⟩
    exact earlier
  | update c g _ ih => exact ih.update

/-! The nearest binding. -/

/-- What a context itself binds stands in its frame. -/
lemma own?_eq (found : f.context? c = some ctx) (name : String) :
    f.own? c name = ctx.frame.get? name := by
  rw [own?, found]
  rfl

/-- A context binds what its frame binds. -/
lemma binds_eq (found : f.context? c = some ctx) (name : String) :
    f.binds c name = (ctx.frame.get? name).isSome := by
  rw [binds, own?_eq found]

/-- The nearest binding is here or the parent's nearest one. -/
lemma Linked.holder?_eq (linked : f.Linked) (found : f.context? c = some ctx) (name : String) :
    f.holder? c name =
      if f.binds c name then some c else ctx.parent.bind fun p => f.holder? p name := by
  rw [holder?, linked.chain_eq found, List.find?_cons]
  cases f.binds c name with
  | true => rfl
  | false => cases ctx.parent <;> rfl

/-- What a context sees is the nearest binding. -/
lemma Linked.get?_eq_own? (linked : f.Linked) (here : c < f.length) (name : String) :
    f.get? c name = (f.holder? c name).bind fun h => f.own? h name := by
  refine linked.climb c here fun c ctx found ih => ?_
  rw [linked.get?_eq found, linked.holder?_eq found, binds_eq found]
  cases bound : ctx.frame.get? name with
  | some v =>
    rw [Option.isSome_some, if_pos rfl, Option.bind_some, own?_eq found, bound]
    rfl
  | none =>
    cases parent : ctx.parent with
    | none => rfl
    | some p => exact ih p parent

/-- The nearest binding is a binding. -/
lemma binds_of_holder? {h : Nat} (found : f.holder? c name = some h) : f.binds h name = true :=
  List.find?_some (p := (f.binds · name)) found

/-- A name without a value has no nearest binding. -/
lemma Linked.get?_eq_none_iff (linked : f.Linked) (here : c < f.length) :
    f.get? c name = none ↔ f.holder? c name = none := by
  rw [linked.get?_eq_own? here]
  cases holder : f.holder? c name with
  | none => simp
  | some h =>
    obtain ⟨v, bound⟩ := Option.isSome_iff_exists.mp (binds_of_holder? holder)
    simp [bound]

/-- The walk of an assignment ends where the nearest binding is. -/
lemma Linked.set_eq_declare (linked : f.Linked) (here : c < f.length) (name : String)
    (value : Value) :
    f.set c name value =
      (f.holder? c name).elim (false, f) fun h => (true, f.declare h name value) := by
  refine linked.climb c here fun c ctx found ih => ?_
  rw [linked.set_eq found, linked.holder?_eq found, binds_eq found]
  split
  · rfl
  · cases parent : ctx.parent with
    | none => rfl
    | some p => exact ih p parent

/-- Every context is exposed to itself. -/
lemma Linked.exposed_self (linked : f.Linked) (found : f.context? c = some ctx) :
    f.Exposed name c c := by
  rw [Exposed, linked.chain_eq found]
  exact ⟨List.mem_cons_self, by simp⟩

/-- Exposure passes from the parent to a context that does not bind the name. -/
lemma Linked.exposed_iff (linked : f.Linked) (found : f.context? d = some ctx) (other : d ≠ c) :
    f.Exposed name c d ↔ f.binds d name = false ∧ ∃ p ∈ ctx.parent, f.Exposed name c p := by
  have passed (cs : List Nat) :
      (d :: cs).takeWhile (· ≠ c) = d :: cs.takeWhile (· ≠ c) := by simp [other]
  rw [Exposed, linked.chain_eq found, List.mem_cons, passed, List.forall_mem_cons]
  cases ctx.parent with
  | none => simp [Ne.symm other]
  | some p =>
    simp only [Option.elim_some, Option.mem_def, Option.some.injEq, exists_eq_left', Exposed,
      Ne.symm other, false_or]
    exact and_left_comm

/-- A context is exposed to a binding exactly if that is the nearest one. -/
lemma Linked.exposed_iff_holder? (linked : f.Linked) {h : Nat} (bound : f.binds h name = true)
    (here : d < f.length) : f.Exposed name h d ↔ f.holder? d name = some h := by
  refine linked.climb d here fun d ctx found ih => ?_
  rw [linked.holder?_eq found]
  by_cases same : d = h
  · subst same
    simp [bound, linked.exposed_self found]
  · rw [linked.exposed_iff found same]
    cases hides : f.binds d name with
    | true => simp [same]
    | false =>
      cases parent : ctx.parent with
      | none => simp
      | some p => simpa using ih p parent

/-- After a declaration exactly the contexts that are exposed to it see it. -/
lemma Linked.get?_declare (linked : f.Linked) (here : d < f.length) (c : Nat) (x y : String)
    (v : Value) :
    (f.declare c x v).get? d y = if y = x ∧ f.Exposed x c d then some v else f.get? d y := by
  have linked' : (f.declare c x v).Linked := linked.update
  -- along the parents of `d`: a context sees what its parent sees unless it has a binding
  refine linked.climb d here fun d ctx found ih => ?_
  by_cases same : d = c
  · subst same
    have found' : (f.declare d x v).context? d =
        some { ctx with frame := ctx.frame.declare x v } := by
      rw [declare, context?_update, if_pos rfl, found, Option.map_some]
    rw [linked'.get?_eq found', Frame.get?_declare]
    by_cases named : y = x
    · simp [named, linked.exposed_self found]
    · rw [if_neg named, if_neg (fun both => named both.1), linked.get?_eq found]
      cases parent : ctx.parent with
      | none => rfl
      | some p => simp only [Option.bind_some, ih p parent, named, false_and, if_false]
  · have found' : (f.declare c x v).context? d = some ctx := by
      rw [declare, context?_update, if_neg same, found]
    rw [linked'.get?_eq found', linked.get?_eq found]
    simp only [linked.exposed_iff found same, binds_eq found]
    cases bound : ctx.frame.get? y with
    | some w =>
      have hidden : ¬ (y = x ∧ (ctx.frame.get? x).isSome = false ∧
          ∃ p ∈ ctx.parent, f.Exposed x c p) := by
        rintro ⟨rfl, free, -⟩
        rw [bound] at free
        cases free
      rw [if_neg hidden]
      rfl
    | none =>
      cases parent : ctx.parent with
      | none => simp
      | some p =>
        have above := ih p parent
        by_cases named : y = x
        · subst named
          simpa [bound] using above
        · simpa [named] using above

/-- The chain of a context ends at its root. -/
lemma Linked.getLast?_chain (linked : f.Linked) (here : c < f.length) :
    (f.chain c).getLast? = some (f.rootOf c) := by
  obtain ⟨ctx, found⟩ := exists_context here
  rw [linked.chain_eq found, linked.rootOf_eq found]
  cases parent : ctx.parent with
  | none => rfl
  | some p =>
    have earlier : p < f.length := Nat.lt_trans (linked.parent_lt found parent) here
    obtain ⟨ctx', found'⟩ := exists_context earlier
    rw [Option.elim_some, Option.elim_some, top, linked.chain_eq found', List.getLast?_cons_cons,
      List.getLast?_cons]
    rfl

/-- A name means what its nearest binding says. An assignment fails exactly if there is none, and
then changes nothing; otherwise all contexts with the same nearest binding see it, and nothing else
is seen. A declaration is seen from all contexts below that have no binding in between. The root of
a context is where its chain ends. -/
theorem nearest_binding_counts {f : Forest} (built : f.Built) {c : Nat} (here : c < f.length)
    (x : String) (v : Value) :
    (f.chain c = c :: (f.parent? c).elim [] f.chain ∧
      f.get? c x = (f.holder? c x).bind fun h => f.own? h x) ∧
    ((f.set c x v).1 = false ↔ f.get? c x = none) ∧
    ((f.set c x v).1 = false → (f.set c x v).2 = f) ∧
    ((f.set c x v).1 = true → ∀ d < f.length, ∀ y,
      (f.set c x v).2.get? d y =
        if y = x ∧ f.holder? d x = f.holder? c x then some v else f.get? d y) ∧
    (∀ d < f.length, ∀ y,
      (f.declare c x v).get? d y = if y = x ∧ f.Exposed x c d then some v else f.get? d y) ∧
    (f.chain c).getLast? = some (f.rootOf c) := by
  have linked := built.linked
  have walk := linked.set_eq_declare here x v
  refine ⟨⟨?_, linked.get?_eq_own? here x⟩, ?_, ?_, ?_, ?_, linked.getLast?_chain here⟩
  · obtain ⟨ctx, found⟩ := exists_context here
    rw [parent?, found]
    exact linked.chain_eq found
  · rw [walk, linked.get?_eq_none_iff here]
    cases f.holder? c x <;> simp
  · rw [walk]
    cases f.holder? c x with
    | none => exact fun _ => rfl
    | some h => rintro ⟨⟩
  · rw [walk]
    cases holder : f.holder? c x with
    | none => rintro ⟨⟩
    | some h =>
      intro _ d present y
      rw [Option.elim_some, linked.get?_declare present]
      simp only [linked.exposed_iff_holder? (binds_of_holder? holder) present]
  · exact fun d present y => linked.get?_declare present c x y v

/-- A root that binds `x`, a child that does not, a child of that one that does, and one that does
not. -/
def family : Forest :=
  (((make [] ⟨[("x", .null)], []⟩ none).make Frame.empty (some 0)).make
    ⟨[("x", .bool true)], []⟩ (some 1)).make Frame.empty (some 1)

/-- An assignment goes to the binding of the root, and the sibling with a binding of its own does
not see it. -/
theorem nearest_binding_counts_family :
    family.Built ∧ 3 < family.length ∧ family.chain 3 = [3, 1, 0] ∧ family.rootOf 3 = 0 ∧
    (family.set 3 "x" .undefined).1 = true ∧
    (family.set 3 "x" .undefined).2.get? 0 "x" = some .undefined ∧
    (family.set 3 "x" .undefined).2.get? 2 "x" = some (.bool true) ∧
    (family.declare 1 "x" .undefined).get? 3 "x" = some .undefined ∧
    (family.declare 1 "x" .undefined).get? 2 "x" = some (.bool true) ∧
    (family.declare 1 "x" .undefined).get? 0 "x" = some .null ∧
    (family.set 3 "y" .undefined).1 = false ∧ (family.set 3 "y" .undefined).2 = family := by
  have built : family.Built :=
    .child _ (by decide) (.child _ (by decide) (.child _ (by decide) (.root _ .nil)))
  obtain ⟨-, -, -, seen, declared, root⟩ :=
    nearest_binding_counts built (c := 3) (by decide) "x" .undefined
  obtain ⟨-, -, -, -, hidden, -⟩ := nearest_binding_counts built (c := 1) (by decide) "x" .undefined
  obtain ⟨-, failed, unchanged, -⟩ :=
    nearest_binding_counts built (c := 3) (by decide) "y" .undefined
  have chain : family.chain 3 = [3, 1, 0] := by decide
  have done : (family.set 3 "x" .undefined).1 = true := by decide
  have missing : (family.set 3 "y" .undefined).1 = false := failed.mpr rfl
  refine ⟨built, by decide, chain, ?_, done, ?_, ?_, ?_, ?_, ?_, missing, unchanged missing⟩
  · rw [chain] at root
    exact (Option.some.inj root).symm
  · exact (seen done 0 (by decide) "x").trans (if_pos (by decide))
  · exact (seen done 2 (by decide) "x").trans (if_neg (by decide))
  · exact (hidden 3 (by decide) "x").trans (if_pos (by decide))
  · exact (hidden 2 (by decide) "x").trans (if_neg (by decide))
  · exact (hidden 0 (by decide) "x").trans (if_neg (by decide))

end

end Forest

end Linework
