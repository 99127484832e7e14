import Mathlib.Algebra.Order.Field.Power
import Mathlib.Tactic.Linarith
import Mathlib.Tactic.NormNum
import Mathlib.Tactic.Positivity
import Mathlib.Tactic.Ring
import Linework.Decimal.Shortest

/-!
# Decimals that read back

The decimal that is found for a double lies in the interval of the numbers that are nearest to it
(`holds_shortest`): seventeen digits are always enough. No number lies in the intervals of two
doubles (`eq_of_holds`). So the decimal determines the double.
-/

namespace Linework.Decimal

/-- Mantissa and exponent of a finite double. -/
structure IsDouble (m : Nat) (e : Int) : Prop where
  mantissa : m < 2 ^ 53
  low : minExponent ≤ e
  high : e ≤ 971
  normal : minExponent < e → 2 ^ 52 ≤ m

namespace Binary

/-- The parts of a double, read off its bits. -/
lemma ofFloat_eq (x : Float) : ofFloat x =
    let bits := x.toBits.toNat
    if bits / 2 ^ 52 % 2 ^ 11 = 2047 then
      if bits % 2 ^ 52 = 0 then .infinite (2 ^ 63 ≤ bits) else .nan
    else if bits / 2 ^ 52 % 2 ^ 11 = 0 then
      .finite (2 ^ 63 ≤ bits) (bits % 2 ^ 52) (-1074)
    else
      .finite (2 ^ 63 ≤ bits) (2 ^ 52 + bits % 2 ^ 52)
        (-1074 + (bits / 2 ^ 52 % 2 ^ 11 : Nat) - 1) :=
  rfl

/-- The parts of a finite double are in their bounds. -/
lemma isDouble_of_ofFloat {x : Float} {negative : Bool} {m : Nat} {e : Int}
    (h : ofFloat x = .finite negative m e) : IsDouble m e := by
  rw [ofFloat_eq] at h
  dsimp only at h
  split at h
  · split at h <;> cases h
  · split at h
    · cases h
      refine ⟨by omega, by decide, by decide, fun above => absurd above (by decide)⟩
    · cases h
      refine ⟨by omega, ?_, by omega, fun _ => by omega⟩
      rw [minExponent]
      omega

/-- The bits tell doubles apart. -/
lemma toBits_injective {x y : Float} (h : x.toBits = y.toBits) : x = y := by
  obtain ⟨⟨b, v⟩⟩ := x
  obtain ⟨⟨b', v'⟩⟩ := y
  obtain rfl : b = b' := h
  rfl

/-- The bits of a double from its sign, mantissa and exponent. -/
lemma toBits_of_ofFloat {x : Float} {negative : Bool} {m : Nat} {e : Int}
    (h : ofFloat x = .finite negative m e) :
    x.toBits.toNat = (if negative then 2 ^ 63 else 0) +
      (if m < 2 ^ 52 then m else (e + 1075).toNat * 2 ^ 52 + (m - 2 ^ 52)) := by
  have bound := x.toBits.toNat_lt
  rw [ofFloat_eq] at h
  dsimp only at h
  generalize x.toBits.toNat = bits at *
  split at h
  · split at h <;> cases h
  · split at h
    · cases h
      have small : bits % 2 ^ 52 < 2 ^ 52 := Nat.mod_lt _ (by decide)
      simp only [small, if_true, decide_eq_true_eq]
      split <;> omega
    · cases h
      simp only [decide_eq_true_eq]
      split <;> split <;> omega

/-- Sign, mantissa and exponent determine a double. -/
lemma ofFloat_inj {x y : Float} {negative : Bool} {m : Nat} {e : Int}
    (h : ofFloat x = .finite negative m e) (h' : ofFloat y = .finite negative m e) : x = y := by
  apply toBits_injective
  apply UInt64.toNat_inj.mp
  rw [toBits_of_ofFloat h, toBits_of_ofFloat h']

open Float.Model in
/-- The exponent field that the infinities and the numbers that are none share. -/
lemma unpackExponent_of_field {b : UInt64} (full : b.toNat / 2 ^ 52 % 2 ^ 11 = 2047) :
    @UnpackedFloat.unpackExponent Format.binary64 b.toBitVec = -1#_ := by
  apply BitVec.eq_of_toNat_eq
  rw [UnpackedFloat.unpackExponent, BitVec.toNat_cast, BitVec.extractLsb_toNat,
    Nat.shiftRight_eq_div_pow]
  exact full

open Float.Model in
/-- A finite number is none of the others. -/
lemma exists_finite {x : Float} (h : x.isFinite = true) :
    ∃ negative m e, ofFloat x = .finite negative m e := by
  have field : x.toBits.toNat / 2 ^ 52 % 2 ^ 11 ≠ 2047 := by
    intro full
    have unpacked : (UnpackedFloat.unpack Format.binary64 x.toBits.toBitVec).isFinite = true := h
    delta UnpackedFloat.unpack at unpacked
    dsimp only at unpacked
    rw [if_pos (unpackExponent_of_field full)] at unpacked
    split at unpacked <;> cases unpacked
  rw [ofFloat_eq]
  dsimp only
  rw [if_neg field]
  split
  · exact ⟨_, _, _, rfl⟩
  · exact ⟨_, _, _, rfl⟩

end Binary

/-! ### Grids -/

/-- The exact value of a decimal. -/
def Numeral.toRat (x : Numeral) : ℚ := x.coefficient * 10 ^ x.exponent

section

variable (u k : Int)

/-- A power with its negative part moved to the other side. -/
lemma natPow_toNat (b : Nat) (nonzero : b ≠ 0) :
    (b : ℚ) ^ u * (b : ℚ) ^ (-u).toNat = (b : ℚ) ^ u.toNat := by
  have base : (b : ℚ) ≠ 0 := Nat.cast_ne_zero.mpr nonzero
  rw [← zpow_natCast, ← zpow_natCast, ← zpow_add₀ base]
  congr 1
  omega

/-- The grid has a positive scale. -/
lemma gridScale_pos : 0 < (gridScale u k).1 ∧ 0 < (gridScale u k).2 := by
  simp only [gridScale, twoTo, tenTo]
  exact ⟨Nat.mul_pos (Nat.two_pow_pos _) (Nat.pow_pos (by decide)),
    Nat.mul_pos (Nat.two_pow_pos _) (Nat.pow_pos (by decide))⟩

/-- The two numbers of a grid stand for its unit and its step, in one measure. -/
lemma exists_measure : ∃ r : ℚ, 0 < r ∧ ((gridScale u k).1 : ℚ) = r * 2 ^ u ∧
    ((gridScale u k).2 : ℚ) = r * 10 ^ k := by
  have two := natPow_toNat u 2 (by decide)
  have ten := natPow_toNat k 10 (by decide)
  refine ⟨2 ^ (-u).toNat * 10 ^ (-k).toNat, by positivity, ?_, ?_⟩
  · simp only [gridScale, twoTo, tenTo, Nat.pow_eq, Nat.cast_mul, Nat.cast_pow]
    push_cast at two ⊢
    rw [← two]
    ring
  · simp only [gridScale, twoTo, tenTo, Nat.pow_eq, Nat.cast_mul, Nat.cast_pow]
    push_cast at ten ⊢
    rw [← ten]
    ring

end

/-! ### Neighbourhoods -/

namespace Neighbourhood

/-- A number comes before another one, or is the same one if that is allowed. -/
def Before {α : Type} [LT α] (closed : Bool) (a b : α) : Prop := a < b ∨ closed = true ∧ a = b

/-- A number lies in a neighbourhood that is measured in units of `2 ^ u`. -/
def Holds (b : Neighbourhood) (u : Int) (q : ℚ) : Prop :=
  Before b.closed (b.low * 2 ^ u : ℚ) q ∧ Before b.closed q (b.high * 2 ^ u : ℚ)

variable {b : Neighbourhood} {s t c : Nat}

/-- The decimal below a number and the one above it are tried. -/
lemma hit?_cases (b : Neighbourhood) (s t : Nat) :
    let below := b.value * s / t
    let low := Before b.closed (b.low * s) (below * t)
    let high := Before b.closed ((below + 1) * t) (b.high * s)
    (∃ c, b.hit? s t = some c ∧ (c = below ∧ low ∨ c = below + 1 ∧ high)) ∨
      b.hit? s t = none ∧ ¬ low ∧ ¬ high := by
  obtain ⟨lowEnd, value, highEnd, closed⟩ := b
  have le_iff (x y : Nat) : Before true x y ↔ x ≤ y := by
    simp [Before, Nat.le_iff_lt_or_eq]
  have lt_iff (x y : Nat) : Before false x y ↔ x < y := by
    simp [Before]
  cases closed
  · simp only [hit?, lt_iff, Bool.false_eq_true, if_false]
    by_cases low : lowEnd * s < value * s / t * t <;>
      by_cases high : (value * s / t + 1) * t < highEnd * s <;> simp [low, high, Nat.lt_or_ge]
  · simp only [hit?, le_iff, if_true]
    by_cases low : lowEnd * s ≤ value * s / t * t <;>
      by_cases high : (value * s / t + 1) * t ≤ highEnd * s <;> simp [low, high, Nat.lt_or_ge]

/-- What is hit lies between the ends. -/
lemma hit?_between (below : b.low < b.value) (above : b.value < b.high) (unit : 0 < s)
    (step : 0 < t) (h : b.hit? s t = some c) :
    Before b.closed (b.low * s) (c * t) ∧ Before b.closed (c * t) (b.high * s) := by
  have floor : b.value * s / t * t ≤ b.value * s := Nat.div_mul_le_self _ _
  have ceiling : b.value * s < (b.value * s / t + 1) * t := by
    rw [Nat.add_one_mul]
    exact Nat.lt_div_mul_add step
  have low : b.low * s < b.value * s := Nat.mul_lt_mul_of_pos_right below unit
  have high : b.value * s < b.high * s := Nat.mul_lt_mul_of_pos_right above unit
  obtain ⟨c', found, hit⟩ | ⟨none, -⟩ := hit?_cases b s t
  · obtain rfl : c' = c := Option.some.inj (found.symm.trans h)
    obtain ⟨rfl, hit⟩ | ⟨rfl, hit⟩ := hit
    · exact ⟨hit, .inl (floor.trans_lt high)⟩
    · exact ⟨.inl (low.trans ceiling), hit⟩
  · rw [none] at h
    cases h

/-- A step that is shorter than the neighbourhood hits it. -/
lemma hit?_isSome (short : t < (b.high - b.low) * s) : (b.hit? s t).isSome = true := by
  obtain ⟨c, found, -⟩ | ⟨-, low, high⟩ := hit?_cases b s t
  · rw [found]
    rfl
  · have below : b.value * s / t * t ≤ b.low * s := Nat.le_of_not_lt fun less => low (.inl less)
    have above : b.high * s ≤ (b.value * s / t + 1) * t :=
      Nat.le_of_not_lt fun less => high (.inl less)
    rw [Nat.add_one_mul] at above
    rw [Nat.sub_mul] at short
    omega

/-- A decimal that is hit lies in the neighbourhood. -/
lemma holds_of_hit? {u k : Int} (below : b.low < b.value) (above : b.value < b.high)
    (h : b.hit? (gridScale u k).1 (gridScale u k).2 = some c) : b.Holds u (c * 10 ^ k) := by
  obtain ⟨r, positive, unit, step⟩ := exists_measure u k
  have positives := gridScale_pos u k
  have cast {closed : Bool} {x y : Nat} {p q : ℚ} (h : Before closed x y) (hx : (x : ℚ) = r * p)
      (hy : (y : ℚ) = r * q) : Before closed p q := by
    refine h.imp (fun less => ?_) (And.imp_right fun same => ?_)
    · rw [← Nat.cast_lt (α := ℚ), hx, hy] at less
      exact lt_of_mul_lt_mul_left less positive.le
    · rw [same, hy] at hx
      exact (mul_left_cancel₀ positive.ne' hx).symm
  have scaled (x : Nat) : ((x * (gridScale u k).1 : Nat) : ℚ) = r * (x * 2 ^ u) := by
    rw [Nat.cast_mul, unit, mul_left_comm]
  have scaled' (x : Nat) : ((x * (gridScale u k).2 : Nat) : ℚ) = r * (x * 10 ^ k) := by
    rw [Nat.cast_mul, step, mul_left_comm]
  obtain ⟨low, high⟩ := hit?_between below above positives.1 positives.2 h
  exact ⟨cast low (scaled _) (scaled' _), cast high (scaled' _) (scaled _)⟩

end Neighbourhood

/-! ### Searching for digits -/

section

variable {b : Neighbourhood} {u point : Int}

/-- What is found with some digits is on the grid of these digits. -/
lemma exists_hit?_of_searchDigits {tries n : Nat} {x : Numeral}
    (h : searchDigits b u point tries n = some x) :
    b.hit? (gridScale u x.exponent).1 (gridScale u x.exponent).2 = some x.coefficient := by
  induction tries generalizing n with
  | zero => cases h
  | succ tries ih =>
    rw [searchDigits] at h
    dsimp only at h
    split at h
    · next c hit =>
      cases h
      exact hit
    · exact ih h

/-- A grid that hits ends the search. -/
lemma searchDigits_isSome {tries n j : Nat} (from_n : n ≤ j) (tried : j < n + tries)
    (hit : (b.hit? (gridScale u (point - j)).1 (gridScale u (point - j)).2).isSome = true) :
    (searchDigits b u point tries n).isSome = true := by
  induction tries generalizing n with
  | zero => omega
  | succ tries ih =>
    rw [searchDigits]
    dsimp only
    split
    · rfl
    · next none =>
      have later : n ≠ j := by
        rintro rfl
        rw [none] at hit
        cases hit
      exact ih (by omega) (by omega)

end

/-! ### The position of the point -/

/-- The test compares with a power of ten. -/
lemma isBelowTenTo_iff (m : Nat) (e k : Int) :
    isBelowTenTo m e k = true ↔ (m : ℚ) * 2 ^ e < 10 ^ k := by
  obtain ⟨r, positive, unit, step⟩ := exists_measure e k
  rw [isBelowTenTo, decide_eq_true_eq, ← Nat.cast_lt (α := ℚ), Nat.cast_mul, unit, step,
    mul_left_comm, mul_lt_mul_iff_of_pos_left positive]

/-- Powers of ten and of two are compared by their exponents. -/
lemma tenTo_le_twoTo {a b : Nat} {j l : Int} (nonzero : a ≠ 0) (slope : j * a ≤ b * l)
    (powers : ((10 : ℚ) ^ b) ^ l ≤ (2 ^ a) ^ l) : (10 : ℚ) ^ j ≤ 2 ^ l := by
  refine le_of_pow_le_pow_left₀ nonzero (by positivity) ?_
  calc ((10 : ℚ) ^ j) ^ a
    _ = 10 ^ (j * a) := by rw [zpow_mul, zpow_natCast]
    _ ≤ 10 ^ ((b : Int) * l) := zpow_le_zpow_right₀ (by norm_num) slope
    _ = (10 ^ b) ^ l := by rw [zpow_mul, zpow_natCast]
    _ ≤ (2 ^ a) ^ l := powers
    _ = (2 ^ l) ^ a := by rw [← zpow_natCast, ← zpow_natCast, ← zpow_mul, ← zpow_mul, mul_comm]

/-- The guess is at most one too high: the logarithm of two lies between `59 / 196` and
`28 / 93`. -/
lemma tenTo_guess_le {l : Int} (low : -1074 ≤ l) (high : l ≤ 1023) :
    (10 : ℚ) ^ ((l * 30103).fdiv 100000 - 1) ≤ 2 ^ l := by
  have guess : (l * 30103).fdiv 100000 = l * 30103 / 100000 :=
    Int.fdiv_eq_ediv_of_nonneg _ (by decide)
  rw [guess]
  obtain ⟨n, rfl | rfl⟩ := l.eq_nat_or_neg
  · refine tenTo_le_twoTo (a := 196) (b := 59) (by decide) (by omega) ?_
    rw [zpow_natCast, zpow_natCast]
    exact pow_le_pow_left₀ (by positivity) (by norm_num) n
  · refine tenTo_le_twoTo (a := 93) (b := 28) (by decide) (by omega) ?_
    rw [zpow_neg, zpow_neg, zpow_natCast, zpow_natCast]
    exact inv_anti₀ (by positivity) (pow_le_pow_left₀ (by positivity) (by norm_num) n)

/-- The first digit of a double stands before the point or behind it where it should. -/
lemma tenTo_pointPosition_le {m : Nat} {e : Int} (double : IsDouble m e) (positive : 0 < m) :
    (10 : ℚ) ^ (pointPosition m e - 1) ≤ m * 2 ^ e := by
  have small : m.log2 < 53 := (Nat.log2_lt positive.ne').mpr double.mantissa
  have low : -1074 ≤ e := double.low
  have high := double.high
  have power : (2 : ℚ) ^ ((m.log2 : Int) + e) ≤ m * 2 ^ e := by
    have floor : ((2 ^ m.log2 : Nat) : ℚ) ≤ m := Nat.cast_le.mpr (Nat.log2_self_le positive.ne')
    push_cast at floor
    rw [zpow_add₀ (by norm_num), zpow_natCast]
    gcongr
  rw [pointPosition]
  split
  · exact (tenTo_guess_le (by omega) (by omega)).trans power
  · next above =>
    rw [isBelowTenTo_iff, not_lt] at above
    split
    · rwa [add_sub_cancel_right]
    · next above' =>
      rw [isBelowTenTo_iff, not_lt] at above'
      rwa [← one_add_one_eq_two, ← add_assoc, add_sub_cancel_right]

/-! ### Neighbourhoods of doubles -/

section

variable {m m' : Nat} {e e' : Int} {q : ℚ}

/-- Only below a power of two the next double is nearer. -/
lemma low_cases (m : Nat) (e : Int) :
    (Neighbourhood.of m e).low = 4 * m - 1 ∧ m = 2 ^ 52 ∧ minExponent < e ∨
      (Neighbourhood.of m e).low = 4 * m - 2 ∧ ¬ (m = 2 ^ 52 ∧ minExponent < e) := by
  by_cases power : m = leastMantissa ∧ minExponent < e
  · exact .inl ⟨if_pos power, power⟩
  · exact .inr ⟨if_neg power, power⟩

/-- The step of seventeen digits is shorter than the neighbourhood. -/
lemma tenTo_seventeen_lt (double : IsDouble m e) (positive : 0 < m) :
    (10 : ℚ) ^ (pointPosition m e - 17) <
      ((Neighbourhood.of m e).high - (Neighbourhood.of m e).low : Nat) * 2 ^ (e - 2) := by
  have bound := double.mantissa
  have wide : 4 * m < ((Neighbourhood.of m e).high - (Neighbourhood.of m e).low) * 10 ^ 16 := by
    have high : (Neighbourhood.of m e).high = 4 * m + 2 := rfl
    obtain ⟨low, power, -⟩ | ⟨low, -⟩ := low_cases m e <;> omega
  have width : ((4 * m : Nat) : ℚ) <
      (((Neighbourhood.of m e).high - (Neighbourhood.of m e).low) * 10 ^ 16 : Nat) :=
    Nat.cast_lt.mpr wide
  rw [Nat.cast_mul, Nat.cast_mul] at width
  push_cast at width
  have quarter : (2 : ℚ) ^ e = 4 * 2 ^ (e - 2) := by
    rw [zpow_sub₀ (by norm_num)]
    norm_num
    ring
  have shift : (10 : ℚ) ^ (pointPosition m e - 17) * 10 ^ 16 = 10 ^ (pointPosition m e - 1) := by
    rw [← zpow_natCast, ← zpow_add₀ (by norm_num)]
    congr 1
    omega
  refine lt_of_mul_lt_mul_right (a := (10 : ℚ) ^ 16) ?_ (by positivity)
  have unit : (0 : ℚ) < 2 ^ (e - 2) := by positivity
  calc (10 : ℚ) ^ (pointPosition m e - 17) * 10 ^ 16
    _ ≤ m * 2 ^ e := shift ▸ tenTo_pointPosition_le double positive
    _ = 4 * m * 2 ^ (e - 2) := by rw [quarter]; ring
    _ < ((Neighbourhood.of m e).high - (Neighbourhood.of m e).low : Nat) * 10 ^ 16 * 2 ^ (e - 2) :=
      mul_lt_mul_of_pos_right width unit
    _ = _ := by ring

/-- Seventeen digits are always enough. -/
lemma searchDigits_of_double (double : IsDouble m e) (positive : 0 < m) :
    (searchDigits (.of m e) (e - 2) (pointPosition m e) 17 1).isSome = true := by
  refine searchDigits_isSome (j := 17) (by decide) (by decide) (Neighbourhood.hit?_isSome ?_)
  obtain ⟨r, measure, unit, step⟩ := exists_measure (e - 2) (pointPosition m e - 17)
  have short := tenTo_seventeen_lt double positive
  rw [← mul_lt_mul_iff_of_pos_left measure, mul_left_comm, ← unit, ← step] at short
  exact_mod_cast short

/-- The decimal with the fewest digits reads back as the double. -/
lemma holds_shortest (double : IsDouble m e) (positive : 0 < m) :
    (Neighbourhood.of m e).Holds (e - 2) (shortest m e).toRat := by
  have below : (Neighbourhood.of m e).low < (Neighbourhood.of m e).value := by
    have value : (Neighbourhood.of m e).value = 4 * m := rfl
    obtain ⟨low, -⟩ | ⟨low, -⟩ := low_cases m e <;> omega
  have above : (Neighbourhood.of m e).value < (Neighbourhood.of m e).high :=
    Nat.lt_add_of_pos_right (by decide)
  obtain ⟨x, found⟩ := Option.isSome_iff_exists.mp (searchDigits_of_double double positive)
  rw [shortest, found]
  exact Neighbourhood.holds_of_hit? below above (exists_hit?_of_searchDigits found)

/-- Neighbourhoods in units of which one is at least `n` times the other have no number in common if
the first one ends before the second one begins, or there without an end that both have. -/
lemma Neighbourhood.Holds.apart {b b' : Neighbourhood} {u u' : Int} {n : Nat}
    (units : (n : ℚ) * 2 ^ u ≤ 2 ^ u') (ends : b.high ≤ n * b'.low)
    (apart : b.closed = true → b'.closed = true → b.high < n * b'.low)
    (h : b.Holds u q) (h' : b'.Holds u' q) : False := by
  have unit : (0 : ℚ) < 2 ^ u := by positivity
  have begins : ((n * b'.low : Nat) : ℚ) * 2 ^ u ≤ b'.low * 2 ^ u' := by
    rw [Nat.cast_mul, mul_right_comm, mul_comm]
    exact mul_le_mul_of_nonneg_left units (Nat.cast_nonneg _)
  have before : (b.high : ℚ) * 2 ^ u ≤ (n * b'.low : Nat) * 2 ^ u :=
    mul_le_mul_of_nonneg_right (Nat.cast_le.mpr ends) unit.le
  obtain below | ⟨closed, atEnd⟩ := h.2
  · obtain above | ⟨-, atEnd'⟩ := h'.1 <;> linarith
  · obtain above | ⟨closed', atEnd'⟩ := h'.1
    · linarith
    · have less : (b.high : ℚ) * 2 ^ u < (n * b'.low : Nat) * 2 ^ u :=
        mul_lt_mul_of_pos_right (Nat.cast_lt.mpr (apart closed closed')) unit
      linarith

/-- Of two doubles with one exponent, the neighbourhood of the smaller one ends first. -/
lemma not_holds_of_mantissa_lt (less : m < m') (h : (Neighbourhood.of m e).Holds (e - 2) q)
    (h' : (Neighbourhood.of m' e).Holds (e - 2) q) : False := by
  have high : (Neighbourhood.of m e).high = 4 * m + 2 := rfl
  have low' : 4 * m' - 2 ≤ (Neighbourhood.of m' e).low := by
    obtain ⟨low, -⟩ | ⟨low, -⟩ := low_cases m' e <;> omega
  refine h.apart (n := 1) (by rw [Nat.cast_one, one_mul]) (by omega) ?_ h'
  intro even even'
  have even : m % 2 = 0 := of_decide_eq_true even
  have even' : m' % 2 = 0 := of_decide_eq_true even'
  omega

/-- Of two doubles with different exponents, the neighbourhood of the smaller one ends first. -/
lemma not_holds_of_exponent_lt (double : IsDouble m e) (double' : IsDouble m' e') (less : e < e')
    (h : (Neighbourhood.of m e).Holds (e - 2) q)
    (h' : (Neighbourhood.of m' e').Holds (e' - 2) q) : False := by
  have bound := double.mantissa
  have normal := double'.normal (double.low.trans_lt less)
  have high : (Neighbourhood.of m e).high = 4 * m + 2 := rfl
  have low' : 2 ^ 54 - 1 ≤ (Neighbourhood.of m' e').low := by
    have above := double.low.trans_lt less
    obtain ⟨low, -⟩ | ⟨low, small⟩ := low_cases m' e'
    · omega
    · have other : m' ≠ 2 ^ 52 := fun power => small ⟨power, above⟩
      omega
  have units : ((2 : Nat) : ℚ) * 2 ^ (e - 2) ≤ 2 ^ (e' - 2) := by
    rw [Nat.cast_ofNat, ← zpow_one_add₀ (by norm_num)]
    exact zpow_le_zpow_right₀ (by norm_num) (by omega)
  refine h.apart units (by omega) ?_ h'
  intro even _
  have even : m % 2 = 0 := of_decide_eq_true even
  omega

/-- The neighbourhoods of two doubles have no number in common. -/
lemma eq_of_holds (double : IsDouble m e) (double' : IsDouble m' e')
    (h : (Neighbourhood.of m e).Holds (e - 2) q)
    (h' : (Neighbourhood.of m' e').Holds (e' - 2) q) : m = m' ∧ e = e' := by
  obtain less | rfl | less := lt_trichotomy e e'
  · exact (not_holds_of_exponent_lt double double' less h h').elim
  · obtain less | rfl | less := lt_trichotomy m m'
    · exact (not_holds_of_mantissa_lt less h h').elim
    · exact ⟨rfl, rfl⟩
    · exact (not_holds_of_mantissa_lt less h' h).elim
  · exact (not_holds_of_exponent_lt double' double less h' h).elim

end

end Linework.Decimal
