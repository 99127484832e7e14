import Mathlib.Order.Basic
import Linework.Machine.Evaluate

/-!
# How values compare

A script compares values in two ways, `==` by `Value.alike` and the order relations by
`Value.compare?`, and the host has a third one, `Value.same`. They are written apart, each with
cases of its own. They agree: `==` is symmetric, the order turns round with its sides, what is the
same is alike, and among truth values, numbers and texts `==` is what the order calls equal.

Nothing has to be assumed of the numbers. How two doubles compare is read off their parts
(`numberOrder`), and there it is seen that the order of two sides swapped is the order reversed.
-/

namespace Linework
open Float.Model (UnpackedFloat)

/-! ### Numbers -/

/-- The order of two doubles by sign, exponent and mantissa, none if one of them is no number. -/
def numberOrder (x y : Float) : Option Ordering := x.toModel.compare y.toModel

/-- The order of two unpacked doubles turns round with its sides. -/
lemma unpacked_compare_swap (x y : UnpackedFloat) :
    y.compare x = (x.compare y).map Ordering.swap := by
  cases x with
  | notANumber => cases y <;> rfl
  | infinity s =>
    cases s <;> cases y with
    | infinity t => cases t <;> rfl
    | _ => rfl
  | zero s =>
    cases y with
    | infinity t | finite t => cases t <;> rfl
    | _ => rfl
  | finite s m e =>
    cases y with
    | infinity t => cases s <;> cases t <;> rfl
    | notANumber | zero t => cases s <;> rfl
    | finite t m' e' =>
      -- of two negative numbers the one with the larger magnitude is the smaller one
      have turned : (compare e' e).then (compare m' m) =
          ((compare e e').then (compare m m')).swap := by
        rw [Ordering.swap_then, Int.compare_swap, Nat.compare_swap]
      cases s with
      | negative =>
        cases t with
        | negative => exact congrArg (fun o => some (Ordering.swap o)) turned
        | positive => rfl
      | positive =>
        cases t with
        | negative => rfl
        | positive => exact congrArg some turned

/-- A reversed order is found where the order is. -/
lemma map_swap_eq_some {found : Option Ordering} {o : Ordering} :
    found.map Ordering.swap = some o ↔ found = some o.swap := by
  cases found with
  | none => simp
  | some o' => cases o <;> cases o' <;> simp

/-- The order of two doubles turns round with its sides. -/
lemma numberOrder_swap (x y : Float) : numberOrder y x = (numberOrder x y).map Ordering.swap :=
  unpacked_compare_swap _ _

/-- A double is below another one if their parts say so. -/
lemma float_lt_iff (x y : Float) : x < y ↔ numberOrder x y = some .lt := by
  show Float.lt x y = true ↔ _
  simp [Float.lt, LT.lt, Float.Model.lt, UnpackedFloat.lt, numberOrder, Float.Model.compare]

/-- Two doubles are equal if their parts say so. -/
lemma float_beq_iff (x y : Float) : (x == y) = true ↔ numberOrder x y = some .eq := by
  show (x.toModel.compare y.toModel == some .eq) = true ↔ _
  rw [beq_iff_eq, numberOrder]

/-- The three tests of the order of numbers find what the parts of the numbers say. -/
lemma compareNumbers?_eq (x y : Float) : compareNumbers? x y = numberOrder x y := by
  have turned : y < x ↔ numberOrder x y = some .gt := by
    rw [float_lt_iff, numberOrder_swap x y, map_swap_eq_some, Ordering.swap_lt]
  simp only [compareNumbers?, float_lt_iff x y, float_beq_iff, turned]
  cases numberOrder x y with
  | none => rfl
  | some o => cases o <;> rfl

/-- The order of two numbers turns round with its sides. -/
lemma compareNumbers?_swap (x y : Float) :
    compareNumbers? y x = (compareNumbers? x y).map Ordering.swap := by
  rw [compareNumbers?_eq, compareNumbers?_eq, numberOrder_swap]

/-- The order calls two numbers equal if `==` does. -/
lemma compareNumbers?_eq_some_eq (x y : Float) :
    compareNumbers? x y = some .eq ↔ (x == y) = true := by
  rw [compareNumbers?_eq, float_beq_iff]

/-- Equality of doubles is symmetric. -/
lemma float_beq_comm (x y : Float) : (x == y) = (y == x) := by
  rw [Bool.eq_iff_iff, float_beq_iff, float_beq_iff, numberOrder_swap x y, map_swap_eq_some,
    Ordering.swap_eq]

/-! ### Texts -/

/-- The order of two texts turns round with its sides. -/
lemma compareTexts_swap (s t : String) : compareTexts t s = (compareTexts s t).swap :=
  compareOfLessAndEq_eq_swap String.le_antisymm String.le_total String.not_le

/-- The order calls only a text itself equal to it. -/
lemma compareTexts_eq_eq (s t : String) : compareTexts s t = .eq ↔ s = t :=
  compareOfLessAndEq_eq_eq String.le_refl String.not_le

/-! ### Values -/

namespace Value

/-- Truth values, numbers and texts: what `==` and the order both compare. -/
def isScalar : Value → Bool
  | bool _ | number _ | text _ => true
  | undefined | null | object _ => false

/-- The order turns round with its sides. -/
lemma compare?_swap (a b : Value) : b.compare? a = (a.compare? b).map Ordering.swap := by
  cases a with
  | text s =>
    cases b with
    | text t => exact congrArg some (compareTexts_swap s t)
    | _ => exact compareNumbers?_swap _ _
  | _ => cases b <;> exact compareNumbers?_swap _ _

/-- `==` is symmetric. -/
lemma alike_comm (a b : Value) : a.alike b = b.alike a := by
  cases a with
  | undefined | null => cases b <;> rfl
  | object o =>
    cases b with
    | object p => exact BEq.comm
    | _ => rfl
  | text s =>
    cases b with
    | text t => exact BEq.comm
    | bool _ | number _ => exact float_beq_comm _ _
    | _ => rfl
  | bool _ | number _ =>
    cases b with
    | bool _ | number _ | text _ => exact float_beq_comm _ _
    | _ => rfl

/-- What is of one kind and the same is alike, even where `alike` compares the numbers that truth
values stand for. -/
lemma alike_of_same {a b : Value} (h : a.same b = true) : a.alike b = true := by
  cases a with
  | undefined =>
    cases b with
    | undefined => rfl
    | _ => cases h
  | null =>
    cases b with
    | null => rfl
    | _ => cases h
  | bool x =>
    cases b with
    | bool y =>
      -- the numbers compared are zero or one, and both equal themselves
      obtain rfl : x = y := beq_iff_eq.mp h
      cases x <;> decide +kernel
    | _ => cases h
  | number x =>
    cases b with
    | number y => exact h
    | _ => cases h
  | text s =>
    cases b with
    | text t => exact h
    | _ => cases h
  | object o =>
    cases b with
    | object p => exact h
    | _ => cases h

/-- Of two scalars, `==` holds of those that the order calls equal. -/
lemma alike_iff_compare? {a b : Value} (ha : a.isScalar = true) (hb : b.isScalar = true) :
    a.alike b = true ↔ a.compare? b = some .eq := by
  cases a with
  | undefined | null | object _ => cases ha
  | text s =>
    cases b with
    | undefined | null | object _ => cases hb
    | text t =>
      show (s == t) = true ↔ some (compareTexts s t) = some .eq
      rw [beq_iff_eq, Option.some_inj, compareTexts_eq_eq]
    | bool _ | number _ => exact (compareNumbers?_eq_some_eq _ _).symm
  | bool _ | number _ =>
    cases b with
    | undefined | null | object _ => cases hb
    | bool _ | number _ | text _ => exact (compareNumbers?_eq_some_eq _ _).symm

end Value

/-! ### Operators -/

/-- An operator between two values comes out true. -/
def Holds (op : TokenKind) (a b : Value) : Prop := binaryValue op a b = .bool true

/-- An order relation holds if there is an order that it accepts. -/
lemma ordered_eq_true {accepts : Ordering → Bool} {a b : Value} :
    ordered accepts a b = .bool true ↔ ∃ o, a.compare? b = some o ∧ accepts o = true := by
  rw [ordered, Value.bool.injEq, Option.any_eq_true]

/-- An order relation between two sides is the reversed one between the sides swapped. -/
lemma ordered_swap (accepts : Ordering → Bool) (a b : Value) :
    ordered accepts b a = ordered (fun o => accepts o.swap) a b := by
  rw [ordered, Value.compare?_swap a b, Option.any_map]
  rfl

/-- A value is not both before and after another one. -/
lemma not_less_and_greater (a b : Value) : ¬ (Holds .less a b ∧ Holds .greater a b) := by
  rintro ⟨less, greater⟩
  obtain ⟨o, found, before⟩ := ordered_eq_true.mp less
  obtain ⟨o', found', after⟩ := ordered_eq_true.mp greater
  obtain rfl : o = o' := Option.some.inj (found.symm.trans found')
  cases o with
  | lt => cases after
  | eq | gt => cases before

/-- `<=` is `>=` with its sides swapped. -/
lemma lessEqual_eq_greaterEqual (a b : Value) :
    binaryValue .lessEqual a b = binaryValue .greaterEqual b a := by
  show ordered Ordering.isLE a b = ordered Ordering.isGE b a
  rw [ordered_swap Ordering.isGE]
  simp only [Ordering.isGE_swap]

/-- Of two scalars, one is before the other or alike if the order says one or the other. -/
lemma lessEqual_iff {a b : Value} (ha : a.isScalar = true) (hb : b.isScalar = true) :
    Holds .lessEqual a b ↔ Holds .less a b ∨ Holds .equalEqual a b := by
  have equal : Holds .equalEqual a b ↔ a.compare? b = some .eq := by
    rw [← Value.alike_iff_compare? ha hb]
    exact Value.bool.injEq _ _ ▸ Iff.rfl
  rw [equal]
  show ordered Ordering.isLE a b = .bool true ↔ ordered Ordering.isLT a b = .bool true ∨ _
  rw [ordered_eq_true, ordered_eq_true]
  cases a.compare? b with
  | none => simp
  | some o => cases o <;> simp

/-- The comparisons of values agree with each other, whatever the values are. -/
theorem comparison_coherent (a b : Value) :
    a.alike b = b.alike a ∧
    b.compare? a = (a.compare? b).map Ordering.swap ∧
    ¬ (Holds .less a b ∧ Holds .greater a b) ∧
    binaryValue .lessEqual a b = binaryValue .greaterEqual b a ∧
    (a.same b = true → a.alike b = true) ∧
    (a.isScalar = true → b.isScalar = true →
      (a.alike b = true ↔ a.compare? b = some .eq) ∧
      (Holds .lessEqual a b ↔ Holds .less a b ∨ Holds .equalEqual a b)) := by
  refine ⟨a.alike_comm b, a.compare?_swap b, not_less_and_greater a b,
    lessEqual_eq_greaterEqual a b, Value.alike_of_same, fun ha hb => ?_⟩
  exact ⟨Value.alike_iff_compare? ha hb, lessEqual_iff ha hb⟩

/-- A text between blanks is at most the number that it writes, the two zeros are alike, and a text
that writes no number is not at most a number. -/
theorem comparison_coherent_mixed :
    Holds .lessEqual (.text " 3 ") (.number 3) ∧
    (Value.number 0).alike (.number (-0)) = true ∧
    ¬ Holds .lessEqual (.text "3x") (.number 3) := by
  obtain ⟨-, -, -, -, -, scalars⟩ := comparison_coherent (.text " 3 ") (.number 3)
  obtain ⟨-, -, -, -, zeros, -⟩ := comparison_coherent (.number 0) (.number (-0))
  obtain ⟨-, -, -, -, -, unreadable⟩ := comparison_coherent (.text "3x") (.number 3)
  have written : (Value.text " 3 ").alike (.number 3) = true := by decide +kernel
  have before : ((Value.text "3x").compare? (.number 3)).any Ordering.isLT = false := by
    decide +kernel
  have equal : (Value.text "3x").alike (.number 3) = false := by decide +kernel
  refine ⟨(scalars rfl rfl).2.mpr (.inr (congrArg Value.bool written)),
    zeros (by decide +kernel), fun atMost => ?_⟩
  rcases (unreadable rfl rfl).2.mp atMost with less | alike
  · exact absurd (before.symm.trans (Value.bool.inj less)) (by decide)
  · exact absurd (equal.symm.trans (Value.bool.inj alike)) (by decide)

end Linework
