import Iconsmith.Decimal.Binary

/-!
# Single and double precision

What is drawn is placed in single precision, and what is read or written has double precision. A double
is rounded to the nearest single, and every single is a double. Both conversions are computed from the
bits, so that they can be reasoned about.
-/

namespace Iconsmith.Single

/-- Powers of natural numbers are those of the core library, also where there are others. -/
local instance (priority := high) natPow : Pow Nat Nat := instPowNat

/-- The magnitude of a finite single. -/
def magnitude (x : Float32) : Binary :=
  let bits : Nat := x.toBits.toNat
  let fraction : Nat := bits % 2 ^ (23 : Nat)
  let biased : Nat := bits / 2 ^ (23 : Nat) % 2 ^ (8 : Nat)
  if biased = 0 then ⟨fraction, -149⟩ else ⟨2 ^ (23 : Nat) + fraction, (biased : Int) - 150⟩

/-- Halves a number some times, and gives the nearest whole number. Of two that are as near it is the
even one. -/
def halve (n times : Nat) : Nat :=
  let half := n / 2 ^ times
  let rest := 2 * (n % 2 ^ times)
  if 2 ^ times < rest || (rest = 2 ^ times && half % 2 = 1) then half + 1 else half

/-- The bits of the positive single nearest to a number. Beyond the range of singles that is
infinity. -/
def nearestBits (x : Binary) : Nat :=
  let least : Int := max (x.exponent + x.mantissa.log2 - 23) (-149)
  let units := halve (x.mantissa * 2 ^ (x.exponent - least).toNat) (least - x.exponent).toNat
  -- A number of units with one digit too many carries into the exponent.
  min ((least + 149).toNat * 2 ^ (23 : Nat) + units) (255 * 2 ^ (23 : Nat))

/-- The bits of the positive double equal to the magnitude of a single. -/
def doubleBits (x : Binary) : Nat :=
  if x.mantissa = 0 then 0
  else
    let digits := x.mantissa.log2
    (x.exponent + digits + 1022).toNat * 2 ^ (52 : Nat) + x.mantissa * 2 ^ (52 - digits)

/-- The single nearest to a double. -/
def ofDouble (x : Float) : Float32 :=
  if x.isNaN then Float32.ofBits 0x7FC00000
  else
    let bits := if x.isFinite then nearestBits (Binary.ofFloat x) else 255 * 2 ^ (23 : Nat)
    Float32.ofBits (UInt32.ofNat (x.toBits.toNat / 2 ^ (63 : Nat) * 2 ^ (31 : Nat) + bits))

/-- The double equal to a single. -/
def toDouble (x : Float32) : Float :=
  if x.isNaN then Float.ofBits 0x7FF8000000000000
  else
    let bits := if x.isFinite then doubleBits (magnitude x) else 2047 * 2 ^ (52 : Nat)
    Float.ofBits (UInt64.ofNat (x.toBits.toNat / 2 ^ (31 : Nat) * 2 ^ (63 : Nat) + bits))

end Iconsmith.Single
