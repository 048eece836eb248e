/-!
# Scalars

The numbers that drawing computes with. Everything that only adds, turns and compares coordinates
is stated over a `Scalar`, so that it runs on numbers of double and of single precision, and can be
read over any field with the same operations.
-/

namespace Iconsmith

/-- A type of numbers with the operations of plane geometry. -/
class Scalar (α : Type) extends Add α, Sub α, Mul α, Div α, Neg α, NatCast α, BEq α where
  lt : α → α → Bool
  abs : α → α
  sqrt : α → α
  sin : α → α
  cos : α → α
  tan : α → α
  /-- The angle of the vector `(x, y)`, its second coordinate first. -/
  atan2 : α → α → α
  /-- The ratio of a circle's circumference to its diameter. -/
  pi : α
  /-- The least natural number that is not below a number, `0` if there is none. -/
  ceilNat : α → Nat

namespace Scalar

variable {α : Type} [Scalar α]

/-- A natural number as a scalar. -/
abbrev lit (n : Nat) : α := (n : α)

/-- The number itself where it is positive, and zero elsewhere. -/
def positivePart (x : α) : α :=
  if lt (lit 0) x then x else lit 0

/-- An angle in radians, from degrees. -/
def radians (degrees : α) : α :=
  degrees * (pi / lit 180)

end Scalar

instance : Scalar Float where
  natCast n := Float.ofNat n
  lt x y := decide (x < y)
  abs := Float.abs
  sqrt := Float.sqrt
  sin := Float.sin
  cos := Float.cos
  tan := Float.tan
  atan2 := Float.atan2
  pi := 3.141592653589793
  ceilNat x := x.ceil.toUInt64.toNat

instance : Scalar Float32 where
  natCast n := Float32.ofNat n
  lt x y := decide (x < y)
  abs := Float32.abs
  sqrt := Float32.sqrt
  sin := Float32.sin
  cos := Float32.cos
  tan := Float32.tan
  atan2 := Float32.atan2
  pi := 3.141592653589793
  ceilNat x := x.ceil.toUInt64.toNat

end Iconsmith
