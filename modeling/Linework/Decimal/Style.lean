import Linework.Decimal.Shortest

/-!
# Number texts

One writer for all number texts, and a record of the decisions that a format makes: from which
size on an exponent is written, whether an integral number keeps `.0`, and the word for infinity.
-/

namespace Linework.Decimal

/-- The decisions of a number format. -/
structure Style where
  /-- Whether a number with the point after this many digits is written without an exponent. -/
  positional : Int → Bool
  /-- Whether an integral number ends in `.0`. -/
  keepsPoint : Bool
  /-- The word for infinity. -/
  infinityWord : String

/-- Digits with the point in its place, counted from before the first digit. -/
def placePoint (digits : List Char) (point : Int) (keepsPoint : Bool) : List Char :=
  if point ≤ 0 then '0' :: '.' :: List.replicate (-point).toNat '0' ++ digits
  else if digits.length ≤ point then
    digits ++ List.replicate (point.toNat - digits.length) '0'
      ++ (if keepsPoint then ['.', '0'] else [])
  else digits.take point.toNat ++ '.' :: digits.drop point.toNat

/-- Digits with an exponent: one digit, the others after a point, then the power of ten. -/
def placeExponent (digits : List Char) (point : Int) : List Char :=
  let mantissa := match digits with
    | d :: e :: rest => d :: '.' :: e :: rest
    | _ => digits
  mantissa ++ 'e' :: (toString (point - 1)).toList

/-- The digits of a positive number without trailing zeros. -/
def significantDigits (n : Nat) : List Char :=
  ((Nat.toDigits 10 n).reverse.dropWhile (· = '0')).reverse

/-- The text of `m · 2 ^ e`. -/
def Style.magnitude (style : Style) (m : Nat) (e : Int) : List Char :=
  if m = 0 then '0' :: (if style.keepsPoint then ['.', '0'] else [])
  else
    let x := shortest m e
    let digits := significantDigits x.coefficient
    let point := x.exponent + digitCount x.coefficient
    if style.positional point then placePoint digits point style.keepsPoint
    else placeExponent digits point

/-- The text of a number. -/
def Style.write (style : Style) (x : Float) : String :=
  match Binary.ofFloat x with
  | .nan => "NaN"
  | .infinite negative => (if negative then "-" else "") ++ style.infinityWord
  | .finite negative m e =>
    String.ofList ((if negative then ['-'] else []) ++ style.magnitude m e)

end Linework.Decimal
