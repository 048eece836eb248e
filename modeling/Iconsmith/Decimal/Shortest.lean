import Iconsmith.Decimal.Basic
import Iconsmith.Decimal.Binary

/-!
# Shortest decimals

`shortest x` is the decimal with the fewest digits that reads back to the double `x`, and the
nearest to `x` among those. For one digit, two digits and so on, the two neighbours of `x` with
that many digits are tried, and the first count at which one of them reads back wins.
-/

namespace Iconsmith

namespace Binary

attribute [local instance] natPow

/-- A fraction equal to `x / 10 ^ g`, as numerator and denominator. -/
def inUnitsOf (x : Binary) (g : Int) : Nat × Nat :=
  (x.mantissa * 2 ^ x.exponent.toNat * 10 ^ (-g).toNat, 2 ^ (-x.exponent).toNat * 10 ^ g.toNat)

/-- The least `k` with `x < 10 ^ k`, for a positive double. -/
def magnitude (x : Binary) : Int :=
  -- no positive double lies below 10 ^ (-400), so the quotient has a digit
  let (num, den) := x.inUnitsOf (-400)
  (Nat.toDigits 10 (num / den)).length - 400

/-- The decimal equal to `x`. -/
def toDecimal (x : Binary) : Decimal :=
  if x.exponent < 0 then ⟨x.mantissa * 5 ^ (-x.exponent).toNat, x.exponent⟩
  else ⟨x.mantissa * 2 ^ x.exponent.toNat, 0⟩

end Binary

namespace Decimal

/-- The multiple of `10 ^ g` that reads back to `x` and is nearest to it, among the two
neighbours of `x`. Halfway between them the upper one is taken. -/
def onGrid? (x : Float) (g : Int) : Option Decimal :=
  let (num, den) := (Binary.ofFloat x).inUnitsOf g
  let below : Decimal := ⟨num / den, g⟩
  let above : Decimal := ⟨num / den + 1, g⟩
  match below.readsBack x, above.readsBack x with
  | true, true => some (if 2 * (num % den) < den then below else above)
  | true, false => some below
  | false, true => some above
  | false, false => none

/-- The decimal with the fewest digits that reads back to a finite nonnegative double. -/
def shortest (x : Float) : Decimal :=
  let b := Binary.ofFloat x
  if b.mantissa = 0 then ⟨0, 0⟩
  else
    let k := b.magnitude
    let found? := (List.range 17).findSome? fun n => onGrid? x (k - (n + 1 : Nat))
    (found?.getD b.toDecimal).normalize

end Decimal

end Iconsmith
