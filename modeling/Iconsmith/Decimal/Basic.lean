/-!
# Decimals

A decimal is a natural number scaled by a power of ten. `Decimal.toFloat` gives the double nearest
to it, so a decimal reads back to a double when it is sent there.
-/

namespace Iconsmith

/-- The number `digits * 10 ^ exponent`. -/
structure Decimal where
  digits : Nat
  exponent : Int
  deriving DecidableEq, Repr

namespace Decimal

/-- The double nearest to a decimal, ties to even; infinity beyond the range of doubles. -/
def toFloat (d : Decimal) : Float :=
  Float.ofScientific d.digits (decide (d.exponent < 0)) d.exponent.natAbs

/-- Whether a decimal denotes the given double. -/
def readsBack (d : Decimal) (x : Float) : Bool :=
  d.toFloat == x

/-- Moves the trailing zeros of the digits into the exponent; zero gets the exponent zero. -/
def normalize (d : Decimal) : Decimal :=
  if d.digits = 0 then ⟨0, 0⟩
  else if d.digits % 10 = 0 then normalize ⟨d.digits / 10, d.exponent + 1⟩
  else d
termination_by d.digits
decreasing_by
  rename_i h _
  exact Nat.div_lt_self (Nat.pos_of_ne_zero h) (by decide)

/-- The number written by a list of digit characters. -/
def ofDigits (ds : List Char) : Nat :=
  ds.foldl (fun n c => 10 * n + (c.toNat - '0'.toNat)) 0

end Decimal

end Iconsmith
