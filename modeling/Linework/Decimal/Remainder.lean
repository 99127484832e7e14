import Linework.Decimal.Binary

/-!
# Remainder of doubles

The remainder of a truncated division, with the sign of the dividend. It is computed exactly on
the integers behind the two doubles and is always a double itself.
-/

namespace Linework.Decimal

/-- What is left of `x` after taking away `y` a whole number of times. -/
def remainder (x y : Float) : Float :=
  match Binary.ofFloat x, Binary.ofFloat y with
  | .finite negative m e, .finite _ n f =>
    if n = 0 then nan
    else
      let least := min e f
      let rest := m * twoTo (e - least).toNat % (n * twoTo (f - least).toNat)
      let (num, den) := unscale rest 1 (-least)
      nearest negative num den
  | .finite _ _ _, .infinite _ => x
  | _, _ => nan

end Linework.Decimal
