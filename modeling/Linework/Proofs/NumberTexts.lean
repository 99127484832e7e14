import Mathlib.Data.List.TakeWhile
import Linework.Proofs.ReadBack
import Linework.Value

/-!
# Texts of numbers

A finite number is shown with digits, a point among them and perhaps a sign before them
(`displayNumber_chars`). The text has the exact value of the decimal that was found for the number,
so that different numbers are shown differently (`displayNumber_inj`).
-/

namespace Linework.Decimal

/-! ### Digits with a point -/

/-- The exact value of digits among which a point may stand. -/
def textValue (cs : List Char) : ℚ :=
  digitsValue (cs.filter (· ≠ '.')) / 10 ^ (cs.dropWhile (· ≠ '.')).tail.length

section

variable {ds whole fraction : List Char}

/-- Digits without a point are taken as a whole. -/
lemma all_of_pointless (h : '.' ∉ ds) : ∀ c ∈ ds, decide (c ≠ '.') = true := by
  intro c mem
  exact decide_eq_true fun same => h (same ▸ mem)

/-- The value of digits without a point. -/
lemma textValue_whole (h : '.' ∉ ds) : textValue ds = digitsValue ds := by
  have all := all_of_pointless h
  have none : ds.dropWhile (· ≠ '.') = [] := by
    have dropped : (ds ++ []).dropWhile (· ≠ '.') = [] := List.dropWhile_append_of_pos all
    rwa [List.append_nil] at dropped
  rw [textValue, none, List.filter_eq_self.mpr all]
  simp

/-- The value of digits with a point. -/
lemma textValue_point (h : '.' ∉ whole) (h' : '.' ∉ fraction) :
    textValue (whole ++ '.' :: fraction) =
      digitsValue (whole ++ fraction) / 10 ^ fraction.length := by
  have all := all_of_pointless h
  have behind : (whole ++ '.' :: fraction).dropWhile (· ≠ '.') = '.' :: fraction := by
    rw [List.dropWhile_append_of_pos all]
    simp
  have digits : (whole ++ '.' :: fraction).filter (· ≠ '.') = whole ++ fraction := by
    rw [List.filter_append, List.filter_eq_self.mpr all, List.filter_cons_of_neg (by simp),
      List.filter_eq_self.mpr (all_of_pointless h')]
  rw [textValue, behind, digits, List.tail_cons]

/-- Zeros before digits do not count. -/
lemma digitsValue_zeros_append (n : Nat) (ds : List Char) :
    digitsValue (List.replicate n '0' ++ ds) = digitsValue ds := by
  show Nat.ofDigitChars 10 _ 0 = Nat.ofDigitChars 10 _ 0
  rw [Nat.ofDigitChars_append, Nat.ofDigitChars_replicate_zero, Nat.mul_zero]

/-- Zeros after digits multiply by ten. -/
lemma digitsValue_append_zeros (n : Nat) (ds : List Char) :
    digitsValue (ds ++ List.replicate n '0') = 10 ^ n * digitsValue ds := by
  show Nat.ofDigitChars 10 _ 0 = _ * Nat.ofDigitChars 10 _ 0
  rw [Nat.ofDigitChars_append, Nat.ofDigitChars_replicate_zero]

/-- Zeros have no point. -/
lemma point_not_mem_zeros (n : Nat) : '.' ∉ List.replicate n '0' := by
  intro mem
  exact absurd (List.eq_of_mem_replicate mem) (by decide)

/-- Where the point is placed it divides the digits by a power of ten. -/
lemma textValue_placePoint (h : '.' ∉ ds) (point : Int) :
    textValue (placePoint ds point false) = digitsValue ds * 10 ^ (point - ds.length) := by
  rw [placePoint]
  split
  · next small =>
    have text : '0' :: '.' :: List.replicate (-point).toNat '0' ++ ds =
        ['0'] ++ '.' :: (List.replicate (-point).toNat '0' ++ ds) := rfl
    have zeros : ['0'] ++ (List.replicate (-point).toNat '0' ++ ds) =
        List.replicate ((-point).toNat + 1) '0' ++ ds := rfl
    have exponent : point - ds.length = -(((-point).toNat + ds.length : Nat) : Int) := by omega
    rw [text, textValue_point (by decide) (List.not_mem_append (point_not_mem_zeros _) h), zeros,
      digitsValue_zeros_append, exponent, zpow_neg, zpow_natCast, List.length_append,
      List.length_replicate, div_eq_mul_inv]
  · split
    · next large =>
      have exponent : point - ds.length = ((point.toNat - ds.length : Nat) : Int) := by omega
      rw [if_neg Bool.false_ne_true, List.append_nil,
        textValue_whole (List.not_mem_append h (point_not_mem_zeros _)), digitsValue_append_zeros,
        exponent, zpow_natCast]
      push_cast
      ring
    · have exponent : point - ds.length = -((ds.drop point.toNat).length : Int) := by
        rw [List.length_drop]
        omega
      rw [textValue_point (fun mem => h (List.mem_of_mem_take mem))
        (fun mem => h (List.mem_of_mem_drop mem)), List.take_append_drop, exponent, zpow_neg,
        zpow_natCast, div_eq_mul_inv]

/-- Digits, or a point that does not come first. -/
structure IsPlain (cs : List Char) : Prop where
  first : ∃ c, cs.head? = some c ∧ c.isDigit = true
  chars : ∀ c ∈ cs, c.isDigit = true ∨ c = '.'

/-- Digits are plain. -/
lemma IsPlain.of_digits (nonempty : ds ≠ []) (digits : ∀ c ∈ ds, c.isDigit = true) :
    IsPlain ds := by
  obtain ⟨d, ds, rfl⟩ := List.exists_cons_of_ne_nil nonempty
  exact ⟨⟨d, rfl, digits d List.mem_cons_self⟩, fun c mem => .inl (digits c mem)⟩

/-- Digits and points may follow. -/
lemma IsPlain.append (h : IsPlain whole) (chars : ∀ c ∈ ds, c.isDigit = true ∨ c = '.') :
    IsPlain (whole ++ ds) := by
  obtain ⟨⟨c, first, digit⟩, all⟩ := h
  exact ⟨⟨c, List.mem_head?_append_of_mem_head? first, digit⟩,
    List.forall_mem_append.mpr ⟨all, chars⟩⟩

/-- Zeros are digits. -/
lemma isDigit_zeros (n : Nat) : ∀ c ∈ List.replicate n '0', c.isDigit = true := by
  intro c mem
  rw [List.eq_of_mem_replicate mem]
  rfl

/-- Digits with a point in their place are plain. -/
lemma isPlain_placePoint (nonempty : ds ≠ []) (digits : ∀ c ∈ ds, c.isDigit = true) (point : Int) :
    IsPlain (placePoint ds point false) := by
  rw [placePoint]
  split
  · have zero : IsPlain ['0', '.'] :=
      (IsPlain.of_digits (List.cons_ne_nil _ _) (isDigit_zeros 1)).append
        (List.forall_mem_singleton.mpr (.inr rfl))
    have zeros := zero.append fun c mem => .inl (isDigit_zeros (-point).toNat c mem)
    exact zeros.append fun c mem => .inl (digits c mem)
  · next positive =>
    split
    · have zeros := (IsPlain.of_digits nonempty digits).append fun c mem =>
        .inl (isDigit_zeros (point.toNat - ds.length) c mem)
      exact zeros.append (List.forall_mem_nil _)
    · have taken : ds.take point.toNat ≠ [] := by
        rw [Ne, List.take_eq_nil_iff]
        rintro (none | none)
        · omega
        · exact nonempty none
      refine (IsPlain.of_digits taken fun c mem => digits c (List.mem_of_mem_take mem)).append ?_
      refine List.forall_mem_cons.mpr ⟨.inr rfl, fun c mem => ?_⟩
      exact .inl (digits c (List.mem_of_mem_drop mem))

/-- The digits of a number are its significant ones and zeros. -/
lemma exists_zeros (c : Nat) :
    ∃ z, Nat.toDigits 10 c = significantDigits c ++ List.replicate z '0' := by
  refine ⟨((Nat.toDigits 10 c).reverse.takeWhile (· = '0')).length, ?_⟩
  have zeros : (Nat.toDigits 10 c).reverse.takeWhile (· = '0') =
      List.replicate ((Nat.toDigits 10 c).reverse.takeWhile (· = '0')).length '0' := by
    rw [List.eq_replicate_iff]
    refine ⟨rfl, fun d mem => ?_⟩
    have zero := List.mem_takeWhile_imp mem
    exact of_decide_eq_true zero
  rw [significantDigits, ← List.reverse_replicate, ← zeros, ← List.reverse_append,
    List.takeWhile_append_dropWhile, List.reverse_reverse]

variable {c : Nat}

/-- Significant digits are digits. -/
lemma isDigit_significantDigits : ∀ d ∈ significantDigits c, d.isDigit = true := by
  intro d mem
  obtain ⟨z, split⟩ := exists_zeros c
  exact Nat.isDigit_of_mem_toDigits (by decide) (by decide) (split ▸ List.mem_append_left _ mem)

/-- Significant digits have no point. -/
lemma point_not_mem_significantDigits : '.' ∉ significantDigits c := by
  intro mem
  exact absurd (isDigit_significantDigits _ mem) (by decide)

/-- The significant digits in their place have the value of all digits. -/
lemma significantDigits_value (c : Nat) (k : Int) :
    (digitsValue (significantDigits c) : ℚ) *
      10 ^ (k + digitCount c - (significantDigits c).length) = c * 10 ^ k := by
  obtain ⟨z, split⟩ := exists_zeros c
  have value : c = 10 ^ z * digitsValue (significantDigits c) := by
    rw [← digitsValue_append_zeros, ← split]
    exact Nat.ofDigitChars_ten_toDigits.symm
  have count : (digitCount c : Int) = (significantDigits c).length + z := by
    rw [digitCount, split, List.length_append, List.length_replicate, Nat.cast_add]
  have exponent : k + digitCount c - (significantDigits c).length = k + z := by omega
  rw [exponent, zpow_add₀ (by norm_num), zpow_natCast]
  conv_rhs => rw [value]
  push_cast
  ring

/-- A positive number has significant digits. -/
lemma significantDigits_ne_nil (positive : 0 < c) : significantDigits c ≠ [] := by
  intro none
  have value := significantDigits_value c 0
  rw [none] at value
  have zero : (c : ℚ) = 0 := by simpa [digitsValue] using value.symm
  exact positive.ne' (Nat.cast_eq_zero.mp zero)

end

/-! ### Texts of numbers -/

section

variable {m m' : Nat} {e e' : Int}

/-- The shortest digits of a positive number stand for one. -/
lemma shortest_pos (double : IsDouble m e) (positive : 0 < m) : 0 < (shortest m e).coefficient := by
  have holds := holds_shortest double positive
  have low : 0 < (Neighbourhood.of m e).low := by
    obtain ⟨low, -⟩ | ⟨low, -⟩ := low_cases m e <;> omega
  have begins : (0 : ℚ) < (Neighbourhood.of m e).low * 2 ^ (e - 2) := by positivity
  have above : (0 : ℚ) < (shortest m e).toRat := by
    obtain less | ⟨-, same⟩ := holds.1
    · exact begins.trans less
    · exact same ▸ begins
  rw [Numeral.toRat] at above
  exact Nat.cast_pos.mp ((mul_pos_iff_of_pos_right (by positivity)).mp above)

/-- How zero is written. -/
lemma magnitude_zero (e : Int) : displayStyle.magnitude 0 e = ['0'] := rfl

/-- How a positive number is written. -/
lemma magnitude_of_pos (positive : 0 < m) : displayStyle.magnitude m e =
    placePoint (significantDigits (shortest m e).coefficient)
      ((shortest m e).exponent + digitCount (shortest m e).coefficient) false := by
  rw [Style.magnitude, if_neg positive.ne']
  rfl

/-- Numbers are written plainly. -/
lemma isPlain_magnitude (double : IsDouble m e) : IsPlain (displayStyle.magnitude m e) := by
  obtain rfl | positive := Nat.eq_zero_or_pos m
  · rw [magnitude_zero]
    exact .of_digits (List.cons_ne_nil _ _) (isDigit_zeros 1)
  · rw [magnitude_of_pos positive]
    exact isPlain_placePoint (significantDigits_ne_nil (shortest_pos double positive))
      isDigit_significantDigits _

/-- The text of a positive double has the value of the decimal that reads back as it. -/
lemma textValue_magnitude (positive : 0 < m) :
    textValue (displayStyle.magnitude m e) = (shortest m e).toRat := by
  rw [magnitude_of_pos positive, textValue_placePoint point_not_mem_significantDigits,
    significantDigits_value]
  rfl

/-- The text of a positive number has a positive value. -/
lemma textValue_pos (double : IsDouble m e) (positive : 0 < m) :
    0 < textValue (displayStyle.magnitude m e) := by
  have coefficient : (0 : ℚ) < (shortest m e).coefficient :=
    Nat.cast_pos.mpr (shortest_pos double positive)
  rw [textValue_magnitude positive, Numeral.toRat]
  positivity

/-- The text of zero has the value zero. -/
lemma textValue_zero (e : Int) : textValue (displayStyle.magnitude 0 e) = 0 := by
  rw [magnitude_zero, textValue_whole (by decide)]
  rfl

/-- The zeros have one exponent. -/
lemma IsDouble.exponent_of_zero (double : IsDouble 0 e) : e = minExponent := by
  by_contra other
  exact absurd (double.normal (lt_of_le_of_ne double.low (Ne.symm other))) (by decide)

/-- The text of a magnitude determines it. -/
lemma magnitude_inj (double : IsDouble m e) (double' : IsDouble m' e')
    (h : displayStyle.magnitude m e = displayStyle.magnitude m' e') : m = m' ∧ e = e' := by
  obtain rfl | positive := Nat.eq_zero_or_pos m <;> obtain rfl | positive' := Nat.eq_zero_or_pos m'
  · exact ⟨rfl, double.exponent_of_zero.trans double'.exponent_of_zero.symm⟩
  · exact absurd ((textValue_zero e).symm.trans (congrArg textValue h))
      (textValue_pos double' positive').ne
  · exact absurd ((textValue_zero e').symm.trans (congrArg textValue h.symm))
      (textValue_pos double positive).ne
  · have same : (shortest m e).toRat = (shortest m' e').toRat := by
      rw [← textValue_magnitude positive, ← textValue_magnitude positive', h]
    exact eq_of_holds double double' (holds_shortest double positive)
      (same ▸ holds_shortest double' positive')

end

end Linework.Decimal

namespace Linework

open Decimal

/-- The text of a finite number is that of its magnitude, perhaps after a sign. -/
lemma displayNumber_of_finite {x : Float} {negative : Bool} {m : Nat} {e : Int}
    (h : Binary.ofFloat x = .finite negative m e) :
    (displayNumber x).toList =
      (if negative then ['-'] else []) ++ displayStyle.magnitude m e := by
  rw [displayNumber, Style.write, h]
  exact String.toList_ofList

/-- The text of a finite number: digits, a point that does not come first, and perhaps a sign that
does. -/
lemma displayNumber_chars {x : Float} (h : x.isFinite = true) :
    IsPlain (displayNumber x).toList ∨ ∃ cs, (displayNumber x).toList = '-' :: cs ∧ IsPlain cs := by
  obtain ⟨negative, m, e, parts⟩ := Binary.exists_finite h
  have plain := isPlain_magnitude (Binary.isDouble_of_ofFloat parts)
  rw [displayNumber_of_finite parts]
  cases negative with
  | false => exact .inl plain
  | true => exact .inr ⟨_, rfl, plain⟩

/-- Different finite numbers have different texts. -/
lemma displayNumber_inj {x y : Float} (finite : x.isFinite = true) (finite' : y.isFinite = true)
    (h : displayNumber x = displayNumber y) : x = y := by
  obtain ⟨negative, m, e, parts⟩ := Binary.exists_finite finite
  obtain ⟨negative', m', e', parts'⟩ := Binary.exists_finite finite'
  have double := Binary.isDouble_of_ofFloat parts
  have double' := Binary.isDouble_of_ofFloat parts'
  have chars := congrArg String.toList h
  rw [displayNumber_of_finite parts, displayNumber_of_finite parts'] at chars
  -- the sign can be told from the digits, which never begin with a minus
  have unsigned (m : Nat) (e : Int) (double : IsDouble m e) (cs : List Char) :
      displayStyle.magnitude m e ≠ '-' :: cs := by
    intro signed
    obtain ⟨c, first, digit⟩ := (isPlain_magnitude double).first
    rw [signed] at first
    cases first
    exact absurd digit (by decide)
  cases negative with
  | false =>
    cases negative' with
    | false =>
      obtain ⟨rfl, rfl⟩ := magnitude_inj double double' chars
      exact Binary.ofFloat_inj parts parts'
    | true => exact (unsigned m e double _ chars).elim
  | true =>
    cases negative' with
    | false => exact (unsigned m' e' double' _ chars.symm).elim
    | true =>
      obtain ⟨rfl, rfl⟩ := magnitude_inj double double' (List.cons.inj chars).2
      exact Binary.ofFloat_inj parts parts'

end Linework
