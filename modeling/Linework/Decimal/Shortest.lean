import Linework.Decimal.Binary
import Linework.Decimal.Reader

/-!
# Fewest digits that read back

The decimals that read back as a given double fill an interval around it: up to half way to each
neighbour, the ends included if the mantissa is even. For one, two, three and more digits the two
decimals around the double are tried in exact arithmetic. The first grid with a hit wins; of two
hits the nearer one is taken, and of two equally near ones the larger.
-/

namespace Linework.Decimal

/-- The grid of step `10 ^ k` against the unit `2 ^ u`, brought to natural numbers: `x` units are
`y` steps exactly if `x * s = y * t`, for the result `(s, t)`. -/
def gridScale (u k : Int) : Nat × Nat :=
  (twoTo u.toNat * tenTo (-k).toNat, twoTo (-u).toNat * tenTo k.toNat)

/-- Whether `m · 2 ^ e < 10 ^ k`. -/
def isBelowTenTo (m : Nat) (e k : Int) : Bool :=
  let (s, t) := gridScale e k
  m * s < t

/-- The position `p` of the point with `10 ^ (p - 1) ≤ m · 2 ^ e < 10 ^ p`, for a positive `m` and
an exponent of a double. The guess, from the binary digits and a logarithm of two that is good to
eight places, is at most two too low. -/
def pointPosition (m : Nat) (e : Int) : Int :=
  let guess := ((m.log2 + e) * 30103).fdiv 100000
  if isBelowTenTo m e guess then guess
  else if isBelowTenTo m e (guess + 1) then guess + 1
  else guess + 2

/-- A positive double and the interval that reads back as it, all as multiples of one unit: the
double is `value`, the ends are `low` and `high`, and they count if `closed`. -/
structure Neighbourhood where
  low : Nat
  value : Nat
  high : Nat
  closed : Bool

/-- The neighbourhood of `m · 2 ^ e` in units of `2 ^ (e - 2)`. Below a power of two the next
double is only half as far. -/
def Neighbourhood.of (m : Nat) (e : Int) : Neighbourhood :=
  { low := if m = leastMantissa ∧ minExponent < e then 4 * m - 1 else 4 * m - 2
    value := 4 * m
    high := 4 * m + 2
    closed := m % 2 = 0 }

/-- The decimal on the grid of step `t` (in units of `1 / s`) that reads back, if there is one. -/
def Neighbourhood.hit? (b : Neighbourhood) (s t : Nat) : Option Nat :=
  let below := b.value * s / t
  let above := below + 1
  let lowHit : Bool := if b.closed then b.low * s ≤ below * t else b.low * s < below * t
  let highHit : Bool := if b.closed then above * t ≤ b.high * s else above * t < b.high * s
  match lowHit, highHit with
  | true, true => some (if 2 * b.value * s < (below + above) * t then below else above)
  | true, false => some below
  | false, true => some above
  | false, false => none

/-- Tries the grids with `n`, `n + 1`, … digits, `tries` of them. -/
def searchDigits (b : Neighbourhood) (u point : Int) : (tries n : Nat) → Option Numeral
  | 0, _ => none
  | tries + 1, n =>
    let k := point - n
    let (s, t) := gridScale u k
    match b.hit? s t with
    | some c => some ⟨c, k⟩
    | none => searchDigits b u point tries (n + 1)

/-- The decimal with the fewest digits that reads back as `m · 2 ^ e`, for a positive `m`.
Seventeen digits are always enough. -/
def shortest (m : Nat) (e : Int) : Numeral :=
  let point := pointPosition m e
  (searchDigits (.of m e) (e - 2) point 17 1).getD ⟨0, 0⟩

end Linework.Decimal
