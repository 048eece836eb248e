import Iconsmith.Plane.Precision

/-!
# Red, green and blue

A color of an SVG document is three bytes. It is written out as eight hexadecimal digits in upper
case, after those of a byte for its opacity.
-/

namespace Iconsmith.Svg

/-- A color without opacity. -/
structure Rgb where
  red : UInt8
  green : UInt8
  blue : UInt8
  deriving DecidableEq, Repr

/-- The two digits of a byte. -/
def byteDigits (b : UInt8) : List Char :=
  [(Nat.digitChar (b.toNat / 16)).toUpper, (Nat.digitChar (b.toNat % 16)).toUpper]

/-- The byte that stands for an opacity. -/
def opacityByte (opacity : Float) : UInt8 :=
  let x := Single.ofDouble opacity
  ((if x < 0 then 0 else if 1 < x then 1 else x) * 255).round.toUInt8

/-- The eight digits of a color with an opacity. -/
def Rgb.digits (c : Rgb) (opacity : Float) : String :=
  String.ofList
    (byteDigits (opacityByte opacity) ++ byteDigits c.red ++ byteDigits c.green
      ++ byteDigits c.blue)

theorem length_digits (c : Rgb) (opacity : Float) : (c.digits opacity).length = 8 := by
  simp [Rgb.digits, byteDigits]

end Iconsmith.Svg
