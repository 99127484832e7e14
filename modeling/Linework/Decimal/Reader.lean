import Linework.Decimal.Binary

/-!
# Reading numbers

The grammar of a number, letters in any case:

`[+-]? ("inf" | "infinity" | "nan" | (digits ["." digits?] | "." digits) ("e" [+-]? digits)?)`

with ASCII digits and no blanks. The value is the double nearest to the written decimal. The digits
of an exponent count only until it has reached `exponentCap`; a number of ordinary length is
infinite or zero long before that.
-/

namespace Linework.Decimal

/-- A decimal as it is written: an integer times a power of ten. -/
structure Numeral where
  coefficient : Nat
  exponent : Int
  deriving DecidableEq, Repr

/-- How many decimal digits a number has. -/
def digitCount (n : Nat) : Nat := (Nat.toDigits 10 n).length

/-- The double nearest to a decimal. Far outside the range of doubles the power of ten is not
computed: below `10 ^ -330` everything is zero and from `10 ^ 310` on everything is infinite. -/
def Numeral.toFloat (negative : Bool) (x : Numeral) : Float :=
  if x.coefficient = 0 then nearest negative 0 1
  else
    let point := x.exponent + digitCount x.coefficient
    if 310 < point then infinity negative
    else if point < -330 then nearest negative 0 1
    else if 0 ≤ x.exponent then nearest negative (x.coefficient * tenTo x.exponent.toNat) 1
    else nearest negative x.coefficient (tenTo (-x.exponent).toNat)

/-- The number that a run of decimal digits writes. -/
def digitsValue (ds : List Char) : Nat :=
  ds.foldl (fun n c => 10 * n + (c.toNat - '0'.toNat)) 0

/-- The digits of a coefficient that are kept as they are. A double, and a point half way between
two doubles, has at most 768 of them. -/
def keptDigits : Nat := 800

/-- The decimal with these digits and this exponent, or one that the same double is nearest to. Of
the digits after the kept ones it matters only whether one of them is not zero. -/
def Numeral.ofDigits (digits : List Char) (exponent : Int) : Numeral :=
  let significant := digits.dropWhile (· = '0')
  match significant.drop keptDigits with
  | [] => ⟨digitsValue significant, exponent⟩
  | rest =>
    let last := if rest.all (· = '0') then 0 else 1
    ⟨10 * digitsValue (significant.take keptDigits) + last, exponent + rest.length - 1⟩

/-- Where an exponent stops growing. -/
def exponentCap : Nat := 65536

/-- The size of the exponent that a run of decimal digits writes. Once it has reached the cap, all
further digits are passed over. -/
def exponentValue (ds : List Char) : Nat :=
  ds.foldl (fun n c => if n < exponentCap then 10 * n + (c.toNat - '0'.toNat) else n) 0

/-- Splits off a sign; true is minus. -/
def takeSign : List Char → Bool × List Char
  | '+' :: cs => (false, cs)
  | '-' :: cs => (true, cs)
  | cs => (false, cs)

/-- The exponent after the digits: nothing at all, or an `e`, a sign and at least one digit. -/
def readExponent? : List Char → Option Int
  | [] => some 0
  | c :: cs =>
    if c = 'e' ∨ c = 'E' then
      let (negative, ds) := takeSign cs
      if ds ≠ [] ∧ ds.all Char.isDigit then
        some (if negative then -(exponentValue ds : Int) else exponentValue ds)
      else none
    else none

/-- Splits off the point and the digits after it. -/
def takeFraction : List Char → List Char × List Char
  | '.' :: cs => (cs.takeWhile Char.isDigit, cs.dropWhile Char.isDigit)
  | cs => ([], cs)

/-- A decimal without its sign. -/
def readNumeral? (cs : List Char) : Option Numeral :=
  let whole := cs.takeWhile Char.isDigit
  let (fraction, rest) := takeFraction (cs.dropWhile Char.isDigit)
  if whole = [] ∧ fraction = [] then none
  else (readExponent? rest).map fun e => .ofDigits (whole ++ fraction) (e - fraction.length)

/-- The number that a text writes, if it writes one. -/
def read? (cs : List Char) : Option Float :=
  let (negative, body) := takeSign cs
  let word := body.map Char.toLower
  if word = "inf".toList ∨ word = "infinity".toList then some (infinity negative)
  else if word = "nan".toList then some nan
  else (readNumeral? body).map (Numeral.toFloat negative)

end Linework.Decimal
