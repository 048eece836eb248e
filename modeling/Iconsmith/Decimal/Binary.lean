/-!
# Doubles in binary

A finite double is a natural number scaled by a power of two, and a sign. Remainders of doubles are
computed from that form, in which they are exact.
-/

namespace Iconsmith

/-- The number `mantissa * 2 ^ exponent`. -/
structure Binary where
  mantissa : Nat
  exponent : Int

namespace Binary

/-- Powers of natural numbers are those of the core library, also where there are others. -/
local instance (priority := high) natPow : Pow Nat Nat := instPowNat

/-- The magnitude of a finite double. -/
def ofFloat (x : Float) : Binary :=
  let bits : Nat := x.toBits.toNat
  let fraction : Nat := bits % 2 ^ (52 : Nat)
  let biased : Nat := bits / 2 ^ (52 : Nat) % 2 ^ (11 : Nat)
  if biased = 0 then ⟨fraction, -1074⟩ else ⟨2 ^ (52 : Nat) + fraction, (biased : Int) - 1075⟩

/-- What is left of a number when `n` is taken away as often as possible. -/
def remainder (x : Binary) (n : Nat) : Binary :=
  let scale := 2 ^ (-x.exponent).toNat
  ⟨x.mantissa * 2 ^ x.exponent.toNat % (n * scale), -((-x.exponent).toNat : Int)⟩

/-- The double equal to a number with at most 53 digits in binary. -/
def toFloat (x : Binary) : Float :=
  (Float.ofNat x.mantissa).scaleB x.exponent

end Binary

/-- What is left of a finite double when `n` is taken away from its magnitude as often as possible.
It keeps its sign. -/
def remainder (x : Float) (n : Nat) : Float :=
  let r := ((Binary.ofFloat x).remainder n).toFloat
  if x < 0 then -r else r

end Iconsmith
