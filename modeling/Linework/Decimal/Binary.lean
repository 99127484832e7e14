/-!
# Doubles as exact numbers

A finite double is a sign and a natural number times a power of two. `ofFloat` reads the parts
off the bits, and `nearest` finds the double next to a given fraction, an exact tie going to the
even one. Both work on natural numbers only, so every result is exact or correctly rounded.
-/

namespace Linework.Decimal

/-- What a double stands for. -/
inductive Binary where
  /-- Not a number. -/
  | nan
  /-- One of the two infinities. -/
  | infinite (negative : Bool)
  /-- `mantissa · 2 ^ exponent`, negated if `negative`. -/
  | finite (negative : Bool) (mantissa : Nat) (exponent : Int)
  deriving DecidableEq, Repr

/-- A power of two. -/
def twoTo (n : Nat) : Nat := Nat.pow 2 n

/-- A power of ten. -/
def tenTo (n : Nat) : Nat := Nat.pow 10 n

/-- The smallest exponent of a double, that of the subnormal ones. -/
def minExponent : Int := -1074

/-- The smallest mantissa of a double that is not subnormal. -/
def leastMantissa : Nat := twoTo 52

/-- The bits of positive infinity: every exponent field below it is finite. -/
def infinityBits : Nat := 2047 * leastMantissa

/-- A double from its sign and the bits of its magnitude. -/
def ofMagnitude (negative : Bool) (bits : Nat) : Float :=
  Float.ofBits (UInt64.ofNat (if negative then twoTo 63 + bits else bits))

/-- An infinity. -/
def infinity (negative : Bool) : Float := ofMagnitude negative infinityBits

/-- The number that is none. -/
def nan : Float := ofMagnitude false (infinityBits + twoTo 51)

/-- Reads sign, exponent field and fraction of a double. -/
def Binary.ofFloat (x : Float) : Binary :=
  let bits := x.toBits.toNat
  let negative := twoTo 63 ≤ bits
  let field : Nat := bits / leastMantissa % twoTo 11
  let fraction : Nat := bits % leastMantissa
  if field = 2047 then
    if fraction = 0 then .infinite negative else .nan
  else if field = 0 then .finite negative fraction minExponent
  else .finite negative (leastMantissa + fraction) (minExponent + field - 1)

/-- The integer nearest to `num / den`; a half goes to the even neighbour. -/
def roundDiv (num den : Nat) : Nat :=
  let quotient := num / den
  let rest := 2 * (num % den)
  if rest < den then quotient
  else if den < rest then quotient + 1
  else quotient + quotient % 2

/-- The fraction `num / den` divided by `2 ^ e`. -/
def unscale (num den : Nat) (e : Int) : Nat × Nat :=
  if 0 ≤ e then (num, den * twoTo e.toNat) else (num * twoTo (-e).toNat, den)

/-- The exponent at which `num / den` has 53 binary digits before the point, or the smallest
exponent if that is larger. -/
def exponentOf (num den : Nat) : Int :=
  let guess := (num.log2 : Int) - den.log2 - 53
  let (n, d) := unscale num den guess
  max minExponent (if n / d < twoTo 53 then guess else guess + 1)

/-- The double nearest to `num / den`, negated if `negative`. What is too large becomes infinite,
what is too small becomes zero. -/
def nearest (negative : Bool) (num den : Nat) : Float :=
  if num = 0 then ofMagnitude negative 0
  else
    let e := exponentOf num den
    let (n, d) := unscale num den e
    let bits := (e - minExponent).toNat * leastMantissa + roundDiv n d
    ofMagnitude negative (min bits infinityBits)

end Linework.Decimal
