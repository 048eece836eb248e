import Iconsmith.Color.Basic
import Iconsmith.Decimal.Binary
import Iconsmith.Svg.Measure
import Iconsmith.Svg.Rgb

/-!
# Tints

A tint is a color of an SVG document with an opacity. It is written in hexadecimal after a hash
sign, as a list of numbers after `rgb` or `hsl`, or by its name.
-/

namespace Iconsmith.Svg

/-- A color with an opacity. -/
structure Tint where
  color : Rgb
  opacity : Float32
  deriving Repr

namespace Tint

/-- A color without transparency, by the number whose bytes it is. -/
def ofRgb (rgb : Nat) : Tint :=
  ⟨⟨UInt8.ofNat (rgb / 65536), UInt8.ofNat (rgb / 256), UInt8.ofNat rgb⟩, 1⟩

/-- The color that everything has by default. -/
def black : Tint := ofRgb 0

/-! ### Names -/

/-- The named colors, in alphabetical order. -/
def names : List (String × Nat) :=
  [("aliceblue", 0xF0F8FF), ("antiquewhite", 0xFAEBD7), ("aqua", 0x00FFFF),
   ("aquamarine", 0x7FFFD4), ("azure", 0xF0FFFF), ("beige", 0xF5F5DC), ("bisque", 0xFFE4C4),
   ("black", 0x000000), ("blanchedalmond", 0xFFEBCD), ("blue", 0x0000FF), ("blueviolet", 0x8A2BE2),
   ("brown", 0xA52A2A), ("burlywood", 0xDEB887), ("cadetblue", 0x5F9EA0), ("chartreuse", 0x7FFF00),
   ("chocolate", 0xD2691E), ("coral", 0xFF7F50), ("cornflowerblue", 0x6495ED),
   ("cornsilk", 0xFFF8DC), ("crimson", 0xDC143C), ("cyan", 0x00FFFF), ("darkblue", 0x00008B),
   ("darkcyan", 0x008B8B), ("darkgoldenrod", 0xB8860B), ("darkgray", 0xA9A9A9),
   ("darkgreen", 0x006400), ("darkgrey", 0xA9A9A9), ("darkkhaki", 0xBDB76B),
   ("darkmagenta", 0x8B008B), ("darkolivegreen", 0x556B2F), ("darkorange", 0xFF8C00),
   ("darkorchid", 0x9932CC), ("darkred", 0x8B0000), ("darksalmon", 0xE9967A),
   ("darkseagreen", 0x8FBC8F), ("darkslateblue", 0x483D8B), ("darkslategray", 0x2F4F4F),
   ("darkslategrey", 0x2F4F4F), ("darkturquoise", 0x00CED1), ("darkviolet", 0x9400D3),
   ("deeppink", 0xFF1493), ("deepskyblue", 0x00BFFF), ("dimgray", 0x696969), ("dimgrey", 0x696969),
   ("dodgerblue", 0x1E90FF), ("firebrick", 0xB22222), ("floralwhite", 0xFFFAF0),
   ("forestgreen", 0x228B22), ("fuchsia", 0xFF00FF), ("gainsboro", 0xDCDCDC),
   ("ghostwhite", 0xF8F8FF), ("gold", 0xFFD700), ("goldenrod", 0xDAA520), ("gray", 0x808080),
   ("green", 0x008000), ("greenyellow", 0xADFF2F), ("grey", 0x808080), ("honeydew", 0xF0FFF0),
   ("hotpink", 0xFF69B4), ("indianred", 0xCD5C5C), ("indigo", 0x4B0082), ("ivory", 0xFFFFF0),
   ("khaki", 0xF0E68C), ("lavender", 0xE6E6FA), ("lavenderblush", 0xFFF0F5),
   ("lawngreen", 0x7CFC00), ("lemonchiffon", 0xFFFACD), ("lightblue", 0xADD8E6),
   ("lightcoral", 0xF08080), ("lightcyan", 0xE0FFFF), ("lightgoldenrodyellow", 0xFAFAD2),
   ("lightgray", 0xD3D3D3), ("lightgreen", 0x90EE90), ("lightgrey", 0xD3D3D3),
   ("lightpink", 0xFFB6C1), ("lightsalmon", 0xFFA07A), ("lightseagreen", 0x20B2AA),
   ("lightskyblue", 0x87CEFA), ("lightslategray", 0x778899), ("lightslategrey", 0x778899),
   ("lightsteelblue", 0xB0C4DE), ("lightyellow", 0xFFFFE0), ("lime", 0x00FF00),
   ("limegreen", 0x32CD32), ("linen", 0xFAF0E6), ("magenta", 0xFF00FF), ("maroon", 0x800000),
   ("mediumaquamarine", 0x66CDAA), ("mediumblue", 0x0000CD), ("mediumorchid", 0xBA55D3),
   ("mediumpurple", 0x9370DB), ("mediumseagreen", 0x3CB371), ("mediumslateblue", 0x7B68EE),
   ("mediumspringgreen", 0x00FA9A), ("mediumturquoise", 0x48D1CC), ("mediumvioletred", 0xC71585),
   ("midnightblue", 0x191970), ("mintcream", 0xF5FFFA), ("mistyrose", 0xFFE4E1),
   ("moccasin", 0xFFE4B5), ("navajowhite", 0xFFDEAD), ("navy", 0x000080), ("oldlace", 0xFDF5E6),
   ("olive", 0x808000), ("olivedrab", 0x6B8E23), ("orange", 0xFFA500), ("orangered", 0xFF4500),
   ("orchid", 0xDA70D6), ("palegoldenrod", 0xEEE8AA), ("palegreen", 0x98FB98),
   ("paleturquoise", 0xAFEEEE), ("palevioletred", 0xDB7093), ("papayawhip", 0xFFEFD5),
   ("peachpuff", 0xFFDAB9), ("peru", 0xCD853F), ("pink", 0xFFC0CB), ("plum", 0xDDA0DD),
   ("powderblue", 0xB0E0E6), ("purple", 0x800080), ("red", 0xFF0000),
   ("rosybrown", 0xBC8F8F), ("royalblue", 0x4169E1), ("saddlebrown", 0x8B4513),
   ("salmon", 0xFA8072), ("sandybrown", 0xF4A460), ("seagreen", 0x2E8B57), ("seashell", 0xFFF5EE),
   ("sienna", 0xA0522D), ("silver", 0xC0C0C0), ("skyblue", 0x87CEEB), ("slateblue", 0x6A5ACD),
   ("slategray", 0x708090), ("slategrey", 0x708090), ("snow", 0xFFFAFA), ("springgreen", 0x00FF7F),
   ("steelblue", 0x4682B4), ("tan", 0xD2B48C), ("teal", 0x008080), ("thistle", 0xD8BFD8),
   ("tomato", 0xFF6347), ("turquoise", 0x40E0D0), ("violet", 0xEE82EE), ("wheat", 0xF5DEB3),
   ("white", 0xFFFFFF), ("whitesmoke", 0xF5F5F5), ("yellow", 0xFFFF00), ("yellowgreen", 0x9ACD32)]

/-- The tint with a given name in lower case. -/
def ofName? (name : String) : Option Tint :=
  if name = "transparent" then some { black with opacity := 0 }
  else (names.lookup name).map ofRgb

/-! ### Hexadecimal digits -/

/-- The value of a hexadecimal digit. -/
def digitValue (c : Char) : Nat :=
  if c.isDigit then c.toNat - '0'.toNat else c.toUpper.toNat - 'A'.toNat + 10

/-- The byte that two digits write. -/
def byteOf (high low : Char) : UInt8 :=
  UInt8.ofNat (16 * digitValue high + digitValue low)

/-- The opacity that a byte stands for. -/
def opacityOfByte (b : UInt8) : Float32 :=
  Float32.ofNat b.toNat / 255

/-- The tint that hexadecimal digits write; in the short forms each digit counts twice. -/
def ofDigits? : List Char → Option Tint
  | [r, g, b] => some ⟨⟨byteOf r r, byteOf g g, byteOf b b⟩, 1⟩
  | [r, g, b, a] => some ⟨⟨byteOf r r, byteOf g g, byteOf b b⟩, opacityOfByte (byteOf a a)⟩
  | [r, r', g, g', b, b'] => some ⟨⟨byteOf r r', byteOf g g', byteOf b b'⟩, 1⟩
  | [r, r', g, g', b, b', a, a'] =>
    some ⟨⟨byteOf r r', byteOf g g', byteOf b b'⟩, opacityOfByte (byteOf a a')⟩
  | _ => none

/-! ### Lists of numbers -/

/-- A number of a list, where a percent sign makes it hundredths. -/
def readShare? (s : List Char) : Option (Float × List Char) := do
  let (x, r) ← readNumber? s
  match r with
  | '%' :: r => return (x / 100, afterItem r)
  | _ => return (x, afterItem r)

/-- The byte nearest to a share of the greatest byte. -/
def byteOfShare (x : Float) : UInt8 :=
  (x * 255).round.toUInt8

/-- A color whose parts are given as bytes, or all as shares of the greatest byte if the first one
is in percent. -/
def readParts? (s : List Char) : Option (Rgb × List Char) := do
  let (r, s) ← readNumber? s
  match s with
  | '%' :: s =>
    let (g, s) ← readShare? (afterItem s)
    let (b, s) ← readShare? s
    return (⟨byteOfShare (r / 100), byteOfShare g, byteOfShare b⟩, s)
  | s =>
    let (g, s) ← readItem? (afterItem s)
    let (b, s) ← readItem? s
    return (⟨r.round.toUInt8, g.round.toUInt8, b.round.toUInt8⟩, s)

/-- The number that a part of a color has at a hue, between a low and a high one. Hues go from zero
to six. -/
def partAt (low high hue : Float32) : Float32 :=
  let hue := if hue < 0 then hue + 6 else hue
  let hue := if 6 ≤ hue then hue - 6 else hue
  if hue < 1 then (high - low) * hue + low
  else if hue < 3 then high
  else if hue < 4 then (high - low) * (4 - hue) + low
  else low

/-- An angle in degrees without whole turns. It is not negative. -/
def withoutTurns (degrees : Float) : Float :=
  remainder (remainder degrees 360 + 360) 360

/-- The share nearest to a number: zero, one, or a number between them. -/
def nearestShare (x : Float) : Float :=
  if 1 < x then 1 else if x < 0 then 0 else x

/-- The color with a hue in degrees, a saturation and a lightness. -/
def ofHue (degrees saturation lightness : Float) : Rgb :=
  let hue := Single.ofDouble (withoutTurns degrees) / 60
  let s := Single.ofDouble (nearestShare saturation)
  let l := Single.ofDouble (nearestShare lightness)
  let high := if l ≤ 0.5 then l * (s + 1) else l + s - l * s
  let low := l * 2 - high
  let part (hue : Float32) : UInt8 := (partAt low high hue * 255).round.toUInt8
  ⟨part (hue + 2), part hue, part (hue - 2)⟩

/-- A color that is given as a hue, a saturation and a lightness. -/
def readHue? (s : List Char) : Option (Rgb × List Char) := do
  let (hue, s) ← readItem? s
  let (saturation, s) ← readShare? s
  let (lightness, s) ← readShare? s
  return (ofHue hue saturation lightness, s)

/-- The tint of a color in a list that an opacity may end, and what comes after the list. -/
def endList? (color : Rgb) (s : List Char) : Option (Tint × List Char) :=
  match s.dropWhile Text.isLayout with
  | ')' :: r => some (⟨color, 1⟩, r)
  | _ => do
    let (a, r) ← readItem? s
    match r.dropWhile Text.isLayout with
    | ')' :: r => return (⟨color, opacityOfByte (byteOfShare a)⟩, r)
    | _ => none

/-! ### Tints -/

/-- The tint at the start of a text, and the rest. -/
def read? (s : List Char) : Option (Tint × List Char) :=
  match s.dropWhile Text.isLayout with
  | '#' :: s =>
    (ofDigits? (s.takeWhile Color.isHexDigit)).map (·, s.dropWhile Color.isHexDigit)
  | s =>
    let name := String.ofList ((s.takeWhile isNameChar).map Char.toLower)
    match name, s.dropWhile isNameChar with
    | "rgb", '(' :: r | "rgba", '(' :: r => do
      let (color, r) ← readParts? r
      endList? color r
    | "hsl", '(' :: r | "hsla", '(' :: r => do
      let (color, r) ← readHue? r
      endList? color r
    | _, r => (ofName? name).map (·, r)

/-- The tint that is all of a text. -/
def ofText? (text : String) : Option Tint := do
  let (tint, r) ← read? text.toList
  if r.all Text.isLayout then some tint else none

end Tint

end Iconsmith.Svg
