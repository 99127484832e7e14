import Mathlib.Data.Set.Card
import Mathlib.Order.Interval.Finset.Nat
import Linework.Proofs.Passage
import Linework.Proofs.Strays

/-!
# The budget of steps

Whatever host functions do with the interrupts they are answered with, the number of steps let
through only grows, and a run does not forget that it has exceeded its limit as long as the counter
has not begun again. So the statements and rounds of a run can be told apart by the number of steps
let through before them, of which there are no more than the limit. A limit that the counter cannot
exceed is none.
-/

namespace Linework

/-- What a run adds to a machine: steps, let through within the limit only, and events that name a
limit of steps only once it is exceeded. -/
structure Later (limits : Limits) (m n : Machine) : Prop where
  granted : m.budget.granted ≤ n.budget.granted
  within : m.budget.granted < n.budget.granted → n.budget.ticks < UInt64.size →
    ∀ most ∈ limits.maxSteps, n.budget.granted ≤ most.toNat
  refused : m.budget.refused ≤ n.budget.refused
  log : ∃ events, n.log.toList = m.log.toList ++ events ∧
    ∀ line limit, .cancelling line (.stepLimit limit) ∈ events →
      ∃ most ∈ limits.maxSteps, most.toNat < n.budget.ticks

namespace Later

variable {limits : Limits} {l m n : Machine}

/-- No step is taken back. -/
lemma ticks (h : Later limits m n) : m.budget.ticks ≤ n.budget.ticks :=
  Nat.add_le_add h.granted h.refused

/-- Nothing is counted and nothing logged. -/
lemma quiet (granted : n.budget.granted = m.budget.granted)
    (refused : n.budget.refused = m.budget.refused) (log : n.log = m.log) : Later limits m n :=
  ⟨granted.ge, fun more => absurd more granted.not_gt, refused.ge, [],
    by rw [log, List.append_nil], fun _ _ mem => absurd mem List.not_mem_nil⟩

/-- What comes later than a later machine is later. -/
lemma trans (h : Later limits l m) (h' : Later limits m n) : Later limits l n := by
  obtain ⟨events, e, late⟩ := h.log
  obtain ⟨events', e', late'⟩ := h'.log
  refine ⟨h.granted.trans h'.granted, fun more few most limited => ?_, h.refused.trans h'.refused,
    events ++ events', ?_, ?_⟩
  · rcases h'.granted.lt_or_eq with more' | same
    · exact h'.within more' few most limited
    · exact same ▸ h.within (same ▸ more) (h'.ticks.trans_lt few) most limited
  · rw [e', e, List.append_assoc]
  · intro line limit mem
    rcases List.mem_append.mp mem with mem | mem
    · obtain ⟨most, limited, exceeded⟩ := late line limit mem
      exact ⟨most, limited, exceeded.trans_le h'.ticks⟩
    · exact late' line limit mem

/-- One event is logged. -/
lemma logged {e : Event} (granted : n.budget.granted = m.budget.granted)
    (refused : m.budget.refused ≤ n.budget.refused) (log : n.log = m.log.push e)
    (late : ∀ line limit, e = .cancelling line (.stepLimit limit) →
      ∃ most ∈ limits.maxSteps, most.toNat < n.budget.ticks) : Later limits m n := by
  refine ⟨granted.ge, fun more => absurd more granted.not_gt, refused, [e],
    by rw [log, Array.toList_push], fun line limit mem => ?_⟩
  exact late line limit (List.mem_singleton.mp mem).symm

end Later

/-- The law of the counters. -/
def counting (limits : Limits) : Law where
  holds _ := True
  step := Later limits
  ends _ := True
  refl _ := .quiet rfl rfl rfl
  trans := .trans
  keeps _ _ := trivial

/-- A step is refused for a limit of steps if it exceeds that limit. -/
lemma Budget.lt_ticks_of_refusal? {limits : Limits} {watch : Watch} {b : Budget} {limit : UInt64}
    (h : refusal? limits watch b = some (.stepLimit limit)) :
    ∃ most ∈ limits.maxSteps, most.toNat < b.ticks := by
  rw [refusal?] at h
  split at h
  · next most exceeded =>
    obtain ⟨limited, lt⟩ := Option.filter_eq_some_iff.mp exceeded
    have lt : most.toNat < b.steps.toNat := UInt64.lt_iff_toNat_lt.mp (of_decide_eq_true lt)
    exact ⟨most, limited, lt.trans_le b.toNat_steps_le⟩
  · obtain ⟨_, _, e⟩ := Option.map_eq_some_iff.mp h
    cases e

/-- The counters do not mind where a call leads to. -/
lemma spanning_counting (limits : Limits) : (counting limits).Spanning where
  enter _ _ := .quiet rfl rfl rfl
  leave _ _ := .quiet rfl rfl rfl

/-- The counters do not mind the frame and the context. -/
lemma placeFree_counting (limits : Limits) : (counting limits).PlaceFree :=
  fun m _ _ => show Later limits m _ from .quiet rfl rfl rfl

/-- Whatever a run does, it is under the law of the counters. -/
lemma universal_counting (limits : Limits) : (counting limits).Universal limits where
  holds _ := trivial
  ends _ := trivial
  opens m _ := show Later limits m _ from .quiet rfl rfl rfl
  other _ budget log := .quiet (budget ▸ rfl) (budget ▸ rfl) log
  values _ := .quiet rfl rfl rfl
  contexts _ := .quiet rfl rfl rfl
  log m e harmless :=
    .logged rfl le_rfl rfl fun line limit same => absurd same (harmless line limit)
  grant {m} free := by
    refine ⟨Nat.le_succ _, fun _ few most limited => ?_, le_rfl, [], (List.append_nil _).symm,
      nofun⟩
    have le := Budget.ticks_le_of_steps_le few (Budget.steps_le_of_refusal? limited free)
    exact (Nat.le_add_right _ _).trans le
  refuse {m reason} refusal := by
    refine .logged rfl (Nat.le_succ _) rfl ?_
    rintro line limit ⟨⟩
    obtain ⟨most, limited, lt⟩ := Budget.lt_ticks_of_refusal? refusal
    refine ⟨most, limited, ?_⟩
    simp only [Budget.ticks] at lt ⊢
    omega
  call _ body :=
    .trans ((spanning_counting limits).enter _ _)
      (.trans body ((spanning_counting limits).leave _ _))
  inside work :=
    .trans (placeFree_counting limits _ _ _) (.trans work (placeFree_counting limits _ _ _))

/-- The way of a task through its parts, with respect to the counters. -/
lemma counting_passage (limits : Limits) (p : Point) :
    Passage (counting limits) limits p p.machine (p.parts limits) (p.finish? limits) :=
  passage (universal_counting limits) (placeFree_counting limits) fun _ => spanning_counting limits

/-- A statement or a round that is let through, at a place below a task under way. -/
def Dispatched (limits : Limits) (here : Point × List Point) (path : List Nat) (q : Point) : Prop :=
  ∃ p ps, Point.follow limits path here = some (q, p :: ps) ∧ p.pays q

section

variable {limits : Limits} {p q x : Point} {ps : List Point} {path : List Nat} {m : Machine}

/-- The way down to a place starts with the part at the first number. -/
lemma Dispatched.cons {i : Nat} (h : Dispatched limits (p, ps) (i :: path) x) :
    ∃ q, (p.parts limits)[i]? = some q ∧ Dispatched limits (q, p :: ps) path x := by
  obtain ⟨p', ps', e, pays⟩ := h
  obtain ⟨q, part, e⟩ := Option.bind_eq_some_iff.mp e
  exact ⟨q, part, p', ps', e, pays⟩

/-- The last thing before a statement or a round is the step that pays for it. -/
lemma Dispatched.paid (h : Dispatched limits (q, p :: ps) path x)
    (begins : Begins (counting limits) limits p m q) :
    ∃ m', Later limits m m' ∧ (Run.spend limits).on m' = some (.ok (), x.machine) := by
  induction path generalizing p q ps m with
  | nil =>
    obtain ⟨p', ps', e, pays⟩ := h
    cases e
    exact begins.paid pays
  | cons i path ih =>
    obtain ⟨q', part, h⟩ := h.cons
    have mem : q' ∈ q.parts limits := List.mem_of_getElem? part
    obtain ⟨m', later, paid⟩ :=
      ih h ((counting_passage limits q).begins (universal_counting limits) q' mem)
    exact ⟨m', .trans begins.step later, paid⟩

/-- A step has been let through for what is dispatched. -/
lemma Dispatched.granted_lt (h : Dispatched limits (q, p :: ps) path x)
    (begins : Begins (counting limits) limits p m q) :
    m.budget.granted < x.machine.budget.granted := by
  obtain ⟨m', later, paid⟩ := h.paid begins
  rw [(Run.eq_of_spend paid).1]
  exact Nat.lt_succ_of_le later.granted

/-- A statement or round begins after what its task has started with, and ends before the task. -/
lemma later_of_follow {here there : Point × List Point}
    (e : Point.follow limits path here = some there) :
    Later limits here.1.machine there.1.machine ∧
      ∀ n, here.1.finish? limits = some n →
        ∃ n', there.1.finish? limits = some n' ∧ Later limits n' n := by
  have u := universal_counting limits
  induction path generalizing here with
  | nil =>
    cases e
    exact ⟨(counting limits).refl _, fun n ended => ⟨n, ended, (counting limits).refl n⟩⟩
  | cons i path ih =>
    obtain ⟨p, ps⟩ := here
    obtain ⟨q, part, e⟩ := Option.bind_eq_some_iff.mp e
    have mem : q ∈ p.parts limits := List.mem_of_getElem? part
    obtain ⟨later, ends⟩ := ih e
    refine ⟨.trans ((counting_passage limits p).begins u q mem).step later, fun n ended => ?_⟩
    obtain ⟨n₁, ended₁, before⟩ := (counting_passage limits p).part_finish? u ended q mem
    obtain ⟨n₂, ended₂, before'⟩ := ends n₁ ended₁
    exact ⟨n₂, ended₂, before'.trans before⟩

/-- What is let through in a later part is let through later. -/
lemma Dispatched.granted_lt_of_lt {i j : Nat} {a b : List Nat} {y : Point}
    (h : Dispatched limits (p, ps) (i :: a) x) (h' : Dispatched limits (p, ps) (j :: b) y)
    (lt : i < j) : x.machine.budget.granted < y.machine.budget.granted := by
  have u := universal_counting limits
  obtain ⟨q, part, p₁, ps₁, e, -⟩ := h.cons
  obtain ⟨q', part', h'⟩ := h'.cons
  obtain ⟨hi, rfl⟩ := List.getElem?_eq_some_iff.mp part
  obtain ⟨hj, rfl⟩ := List.getElem?_eq_some_iff.mp part'
  -- the earlier part has ended at `n`, and all that is inside of it before
  obtain ⟨n, ended, begins⟩ :=
    List.pairwise_iff_getElem.mp ((counting_passage limits p).in_order u) i j hi hj lt
  obtain ⟨n', ended', before⟩ := (later_of_follow e).2 n ended
  have inside : x.machine.budget.granted ≤ n.budget.granted :=
    (step_finish? u ended').granted.trans before.granted
  exact inside.trans_lt (h'.granted_lt begins)

/-- Within a task steps are let through after its beginning. -/
lemma Dispatched.granted_lt_below {i : Nat} (h : Dispatched limits (p, ps) (i :: path) x) :
    p.machine.budget.granted < x.machine.budget.granted := by
  obtain ⟨q, part, h⟩ := h.cons
  have mem : q ∈ p.parts limits := List.mem_of_getElem? part
  exact h.granted_lt ((counting_passage limits p).begins (universal_counting limits) q mem)

/-- The steps let through tell statements and rounds apart. -/
lemma Dispatched.eq_of_granted_eq {a b : List Nat} {y : Point}
    (h : Dispatched limits (p, ps) a x) (h' : Dispatched limits (p, ps) b y)
    (same : x.machine.budget.granted = y.machine.budget.granted) : a = b := by
  induction a generalizing p ps b with
  | nil =>
    obtain ⟨p', ps', e, -⟩ := h
    cases e
    cases b with
    | nil => rfl
    | cons j b => exact absurd same h'.granted_lt_below.ne
  | cons i a ih =>
    cases b with
    | nil =>
      obtain ⟨p', ps', e, -⟩ := h'
      cases e
      exact absurd same h.granted_lt_below.ne'
    | cons j b =>
      -- where the paths part, one of the steps comes after the other
      rcases Nat.lt_trichotomy i j with lt | rfl | lt
      · exact absurd same (h.granted_lt_of_lt h' lt).ne
      · obtain ⟨q, part, h⟩ := h.cons
        obtain ⟨q', part', h'⟩ := h'.cons
        obtain rfl : q = q' := Option.some.inj (part.symm.trans part')
        rw [ih h h']
      · exact absurd same (h'.granted_lt_of_lt h lt).ne'

/-- A statement or round of a run is let through while the limit is not exceeded, and so before the
run has said that it is. -/
lemma Dispatched.within {most : UInt64} (limited : limits.maxSteps = some most)
    (h : Dispatched limits (p, []) path x) (few : x.machine.budget.ticks < UInt64.size) :
    x.machine.budget.granted ∈ Set.Icc 1 most.toNat ∧
      ∃ events, x.machine.log.toList = p.machine.log.toList ++ events ∧
        ∀ line limit, .cancelling line (.stepLimit limit) ∉ events := by
  obtain ⟨p', ps', e, -⟩ := id h
  cases path with
  | nil => cases e
  | cons i path =>
    obtain ⟨q, part, h⟩ := h.cons
    have mem : q ∈ p.parts limits := List.mem_of_getElem? part
    obtain ⟨m', -, paid⟩ :=
      h.paid ((counting_passage limits p).begins (universal_counting limits) q mem)
    obtain ⟨next, within⟩ := Run.eq_of_spend paid
    have ticks : x.machine.budget.ticks ≤ most.toNat :=
      Budget.ticks_le_of_steps_le few (within most limited)
    -- a refusal in the log would have been at a tick beyond the limit
    obtain ⟨events, log, late⟩ := (later_of_follow e).1.log
    refine ⟨⟨?_, (Nat.le_add_right _ _).trans ticks⟩, events, log, ?_⟩
    · rw [next]
      exact Nat.le_add_left 1 _
    intro line limit logged
    obtain ⟨most', limited', exceeded⟩ := late line limit logged
    cases limited.symm.trans limited'
    exact absurd exceeded ticks.not_gt

/-- As long as the counter has not begun again, no more statements and rounds have been let through
than the limit on steps allows. -/
lemma Dispatched.encard_le {most : UInt64} (limited : limits.maxSteps = some most) :
    {path | ∃ q, Dispatched limits (p, []) path q ∧ q.machine.budget.ticks < UInt64.size}.encard ≤
      most.toNat := by
  have : Nonempty Point := ⟨p⟩
  set dispatches := {path | ∃ q, Dispatched limits (p, []) path q ∧ _}
  choose! point dispatched using fun path (mem : path ∈ dispatches) => mem
  -- the steps let through so far give each of them a number of its own
  let granted (path : List Nat) : Nat := (point path).machine.budget.granted
  have bounded : Set.MapsTo granted dispatches (Set.Icc 1 most.toNat) := fun path mem =>
    ((dispatched path mem).1.within limited (dispatched path mem).2).1
  have apart : Set.InjOn granted dispatches := fun path mem path' mem' same =>
    (dispatched path mem).1.eq_of_granted_eq (dispatched path' mem').1 same
  calc dispatches.encard
      ≤ (Set.Icc 1 most.toNat).encard := Set.encard_le_encard_of_injOn bounded apart
    _ = most.toNat := by
      rw [← Finset.coe_Icc, Set.encard_coe_eq_coe_finsetCard, Nat.card_Icc, Nat.add_sub_cancel]

end

/-- The point at which a run of a script starts. -/
def Machine.start (m : Machine) (fuel : Nat) (root : Frame) (script : Script) : Point :=
  ⟨.block script.block, fuel, m.restart root script⟩

/-- As long as the counter of steps has not begun again, no more statements and rounds of a run have
been let through than the limit on steps allows, whatever the host functions do with the interrupts
they see, and where one is let through, no step of the run has been refused for that limit before. A
run that ends before the counter begins again has not let through more, by the count of the machine
neither. -/
theorem steps_within_limit (limits : Limits) (most : UInt64) (limited : limits.maxSteps = some most)
    (fuel : Nat) (m : Machine) (root : Frame) (script : Script) :
    {path | ∃ q, Dispatched limits (m.start fuel root script, []) path q ∧
      q.machine.budget.ticks < UInt64.size}.encard ≤ most.toNat ∧
    (∀ path q, Dispatched limits (m.start fuel root script, []) path q →
      q.machine.budget.ticks < UInt64.size →
      ∃ events, q.machine.log.toList = (m.restart root script).log.toList ++ events ∧
        ∀ line limit, .cancelling line (.stepLimit limit) ∉ events) ∧
    ∀ r n, m.run limits fuel root script = some (r, n) → n.budget.ticks < UInt64.size →
      {path | ∃ q, Dispatched limits (m.start fuel root script, []) path q}.encard ≤ most.toNat ∧
      n.budget.granted ≤ most.toNat := by
  have u := universal_counting limits
  have few : {path | ∃ q, Dispatched limits (m.start fuel root script, []) path q ∧
      q.machine.budget.ticks < UInt64.size}.encard ≤ most.toNat := Dispatched.encard_le limited
  refine ⟨few, fun path q dispatched right => (dispatched.within limited right).2, ?_⟩
  intro r n ended right
  obtain ⟨⟨r, n⟩, at_end, e⟩ := Option.map_eq_some_iff.mp ended
  cases e
  have finish : (m.start fuel root script).finish? limits = some n :=
    Option.map_eq_some_iff.mpr ⟨_, at_end, rfl⟩
  constructor
  · -- all that is let through is let through before the end
    refine (Set.encard_le_encard ?_).trans few
    rintro path ⟨q, dispatched⟩
    obtain ⟨p', ps', e, -⟩ := id dispatched
    obtain ⟨n', ended', before⟩ := (later_of_follow e).2 n finish
    have inside : Later limits q.machine n' := step_finish? u ended'
    exact ⟨q, dispatched, (inside.trans before).ticks.trans_lt right⟩
  · have later : Later limits (m.restart root script) n := step_finish? u finish
    rcases Nat.eq_zero_or_pos n.budget.granted with none | some
    · exact none ▸ Nat.zero_le _
    · exact later.within some right most limited

/-- A script in which an endless loop runs inside a host function that hides how it ends. -/
def sheltered : Script where
  block :=
    [.plain 1 (.compute ⟨"invoke(\"spin\")", .ok (.call ⟨.identifier, "invoke", none, 1⟩
      [.literal (.text "spin")])⟩), callLine 2 "debug"]
  functions := [⟨"spin", [], [.loop 4 ⟨"true", .ok (.literal (.bool true))⟩ []]⟩]
  warnings := []

/-- After the endless loop is cut off, the statement behind it is not let through either. -/
theorem steps_within_limit_sheltered :
    (Limits.mk (some 3) none 2).maxSteps = some 3 ∧
    (∃ n, Engine.quiet.machine.run ⟨some 3, none, 2⟩ 5 shelter sheltered =
        some (.error (.cancelled 2 (.stepLimit 3)), n) ∧
      n.budget.refused = 2 ∧ n.budget.ticks < UInt64.size ∧ n.budget.granted ≤ 3) ∧
    {path | ∃ q, Dispatched ⟨some 3, none, 2⟩
      (Engine.quiet.machine.start 5 shelter sheltered, []) path q}.encard ≤ 3 ∧
    ∃ q events, Dispatched ⟨some 3, none, 2⟩ (Engine.quiet.machine.start 5 shelter sheltered, [])
          [0, 0, 0, 1, 0, 0, 0, 0, 0, 0, 1] q ∧
      q.machine.budget.ticks < UInt64.size ∧
      q.machine.log.toList =
        (Engine.quiet.machine.restart shelter sheltered).log.toList ++ events ∧
      ∀ line limit, .cancelling line (.stepLimit limit) ∉ events := by
  have fails : failure? (Engine.quiet.machine.run ⟨some 3, none, 2⟩ 5 shelter sheltered) =
      some (.cancelled 2 (.stepLimit 3), 0) := by decide +kernel
  have twice : (Engine.quiet.machine.run ⟨some 3, none, 2⟩ 5 shelter sheltered).map
      (fun p => (p.2.budget.refused, p.2.budget.ticks)) = some (2, 5) := by decide +kernel
  have found : (Point.follow ⟨some 3, none, 2⟩ [0, 0, 0, 1, 0, 0, 0, 0, 0, 0, 1]
      (Engine.quiet.machine.start 5 shelter sheltered, [])).map
      (fun here => (here.1.machine.budget.ticks, here.2.head?.map (·.pays here.1))) =
        some (3, some true) := by decide +kernel
  obtain ⟨-, before, counted⟩ :=
    steps_within_limit ⟨some 3, none, 2⟩ 3 rfl 5 Engine.quiet.machine shelter sheltered
  obtain ⟨n, ended, -⟩ := eq_some_of_failure? fails
  rw [ended] at twice
  obtain ⟨refused, ticks⟩ := Prod.mk.inj (Option.some.inj twice)
  have right : n.budget.ticks < UInt64.size := ticks ▸ (by decide)
  obtain ⟨⟨q, ps⟩, path, e⟩ := Option.map_eq_some_iff.mp found
  obtain ⟨ticks', e⟩ := Prod.mk.inj e
  obtain ⟨p, head, pays⟩ := Option.map_eq_some_iff.mp e
  obtain ⟨ps', rfl⟩ := List.head?_eq_some_iff.mp head
  have right' : q.machine.budget.ticks < UInt64.size := ticks' ▸ (by decide)
  have dispatched := (⟨p, ps', path, pays⟩ : Dispatched _ _ _ q)
  obtain ⟨events, log, harmless⟩ := before _ q dispatched right'
  obtain ⟨few, granted⟩ := counted _ n ended right
  exact ⟨rfl, ⟨n, ended, refused, right, granted⟩, few, q, events, dispatched, right', log,
    harmless⟩

/-- A limit that the counter cannot exceed. -/
def Limits.highest : Limits := ⟨some 18446744073709551615, none, 128⟩

/-- The highest limit of steps never refuses one. -/
lemma Budget.refusal?_highest (watch : Watch) (b : Budget) :
    refusal? Limits.highest watch b = none := by
  have within : ¬(18446744073709551615 : UInt64) < b.steps := by
    rw [UInt64.lt_iff_toNat_lt]
    exact Nat.not_lt.mpr (Nat.le_of_lt_succ b.steps.toNat_lt)
  rw [refusal?, Limits.highest, Option.filter_some, if_neg (by simpa using within)]
  rfl

/-- So every step is let through. -/
lemma Run.on_spend_highest (m : Machine) : (Run.spend Limits.highest).on m =
    some (.ok (), { m with budget.granted := m.budget.granted + 1 }) := by
  rw [Run.on_spend, Budget.refusal?_highest]

/-- The text of a condition that always holds. -/
def always : Formula := ⟨"true", .ok (.literal (.bool true))⟩

/-- A loop without an end. -/
def endless : Script := ⟨[.loop 1 always []], [], []⟩

/-- A round of the endless loop: the test, what is inside, and the next rounds. -/
lemma parts_endless (bound fuel : Nat) (m : Machine) :
    Point.parts Limits.highest ⟨.rounds 1 always [] (bound + 1), fuel, m⟩ =
      [⟨.formula always, fuel, { m with line := 1 }⟩,
        ⟨.block [], fuel, { m with line := 1, budget.granted := m.budget.granted + 1 }⟩,
        ⟨.rounds 1 always [] bound, fuel,
          { m with line := 1, budget.granted := m.budget.granted + 1 }⟩] := by
  have holds (n : Machine) : (always.eval (callByName Limits.highest fuel)).on n =
    some (.ok (.bool true), n) := rfl
  simp only [Point.parts, Point.partsOfRounds, Run.after, holds, Value.isTruthy, if_true,
    Run.on_spend_highest]
  rfl

/-- Each round of the endless loop is let through. -/
lemma dispatched_endless {j bound fuel : Nat} (lt : j < bound) (m : Machine) (ps : List Point) :
    ∃ q, Dispatched Limits.highest (⟨.rounds 1 always [] bound, fuel, m⟩, ps)
      (List.replicate j 2 ++ [1]) q := by
  induction j generalizing bound m ps with
  | zero =>
    obtain ⟨bound, rfl⟩ := Nat.exists_eq_succ_of_ne_zero (Nat.ne_of_gt lt)
    refine ⟨⟨.block [], fuel, { m with line := 1, budget.granted := m.budget.granted + 1 }⟩,
      ⟨.rounds 1 always [] (bound + 1), fuel, m⟩, ps, ?_, rfl⟩
    simp only [List.replicate_zero, List.nil_append, Point.follow, parts_endless]
    rfl
  | succ j ih =>
    obtain ⟨bound, rfl⟩ := Nat.exists_eq_succ_of_ne_zero (Nat.ne_of_gt (j.succ_pos.trans lt))
    obtain ⟨q, p, ps', path, pays⟩ := ih (Nat.lt_of_succ_lt_succ lt)
      { m with line := 1, budget.granted := m.budget.granted + 1 }
      (⟨.rounds 1 always [] (bound + 1), fuel, m⟩ :: ps)
    refine ⟨q, p, ps', ?_, pays⟩
    rw [List.replicate_succ, List.cons_append, Point.follow, parts_endless]
    exact path

/-- So there are as many rounds as the fuel lasts for. -/
lemma fuel_le_encard_endless (m : Machine) (root : Frame) (fuel : Nat) :
    fuel ≤ {path | ∃ q, Dispatched Limits.highest
      (m.start fuel root endless, []) path q}.encard := by
  let path (j : Nat) : List Nat := [0, 0] ++ (List.replicate j 2 ++ [1])
  have rounds : Set.MapsTo path (Set.Iio fuel) {path | ∃ q, Dispatched Limits.highest
      (m.start fuel root endless, []) path q} := by
    intro j lt
    obtain ⟨q, p, ps, round, pays⟩ := dispatched_endless lt
      { m.restart root endless with line := 1, budget.granted := 1 } _
    exact ⟨q, p, ps, round, pays⟩
  have apart : Set.InjOn path (Set.Iio fuel) := by
    intro i _ j _ same
    have length := congrArg List.length same
    simpa [path] using length
  calc (fuel : ℕ∞) = (Set.Iio fuel).encard := by
        rw [← Finset.coe_Iio, Set.encard_coe_eq_coe_finsetCard, Nat.card_Iio]
    _ ≤ _ := Set.encard_le_encard_of_injOn rounds apart

/-- Under the highest limit of steps an endless loop is let through more rounds than that, if only
the fuel lasts. -/
theorem steps_beyond_highest :
    Limits.highest.maxSteps = some 18446744073709551615 ∧
    ((18446744073709551615 : UInt64).toNat : ℕ∞) < {path | ∃ q, Dispatched Limits.highest
      (Engine.quiet.machine.start UInt64.size builtinRoot endless, []) path q}.encard := by
  refine ⟨rfl, lt_of_lt_of_le ?_ (fuel_le_encard_endless _ _ _)⟩
  exact Nat.cast_lt.mpr (UInt64.toNat_lt _)

end Linework
