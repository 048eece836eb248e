import Iconsmith.Shape.Drawing
import Iconsmith.Xml.Reference

/-!
# Previews of shapes

A shape has no colors. Its preview is filled with the color of the graphic when all paths share a
single solid fill, and is left unstyled otherwise.
-/

namespace Iconsmith.Shape

/-- The color and the opacity of a path that is filled with a single color. -/
def solidFill? (p : Path Float) : Option (String × Float) :=
  match p.fill with
  | some (.solid color) => some (color, p.fillAlpha)
  | _ => none

/-- Whether a path is filled with a color at an opacity. -/
def isFilledWith (color : String) (alpha : Float) (p : Path Float) : Bool :=
  match solidFill? p with
  | some (c, a) => c = color && a == alpha
  | none => false

/-- The color and the opacity that all paths share, if they do. -/
def sharedFill? : List (Path Float) → Option (String × Float)
  | [] => none
  | p :: ps => do
    let (color, alpha) ← solidFill? p
    if ps.all (isFilledWith color alpha) then some (color, alpha) else none

/-! ### Colors -/

/-- Drops a number of bytes, unless that cuts a character. -/
def dropBytes? : Nat → List Char → Option (List Char)
  | 0, s => some s
  | _ + 1, [] => none
  | n + 1, c :: s => if c.utf8Size ≤ n + 1 then dropBytes? (n + 1 - c.utf8Size) s else none

/-- Takes a number of bytes, unless that cuts a character. -/
def takeBytes? : Nat → List Char → Option (List Char)
  | 0, _ => some []
  | _ + 1, [] => none
  | n + 1, c :: s =>
    if c.utf8Size ≤ n + 1 then (takeBytes? (n + 1 - c.utf8Size) s).map (c :: ·) else none

/-- The value of hex digits behind an optional plus sign. -/
def hexValue? : List Char → Option Nat
  | '+' :: digits => Xml.readDigits? 16 digits
  | digits => Xml.readDigits? 16 digits

/-- The channel whose two hex digits begin at a byte of a color; what cannot be read counts as
zero. -/
def channel (color : String) (start : Nat) : Float :=
  match dropBytes? start color.toList >>= takeBytes? 2 >>= hexValue? with
  | some v => Float.ofNat v / 255
  | none => 0

/-- The color of a fill. -/
def colorCall (color : String) (alpha : Float) : String :=
  "Color(red: " ++ numberLiteral (channel color 2)
    ++ ", green: " ++ numberLiteral (channel color 4)
    ++ ", blue: " ++ numberLiteral (channel color 6)
    ++ ", opacity: " ++ numberLiteral (channel color 0 * alpha) ++ ")"

/-! ### The preview -/

/-- The modifier that fills the shape, if the paths share a fill. -/
def fillModifier (g : Graphic Float) : List String :=
  match sharedFill? g.paths with
  | some (color, alpha) => [".fill(" ++ colorCall color alpha ++ ")"]
  | none => []

/-- The modifiers of a shape in its preview. -/
def modifiers (g : Graphic Float) : List String :=
  fillModifier g
    ++ [".frame(width: " ++ numberLiteral g.width.toDp
          ++ ", height: " ++ numberLiteral g.height.toDp ++ ")",
        ".padding(12)"]

/-- The lines of a preview. -/
def preview (symbol : String) (g : Graphic Float) : List String :=
  ["#if DEBUG"]
    ++ Source.block ("struct " ++ symbol ++ "_Previews: PreviewProvider")
      (Source.block "static var previews: some View"
        ((symbol ++ "()") :: Source.indent (modifiers g)))
    ++ ["#endif"]

/-- The notice that a preview is unstyled. -/
def unstyledNotice (symbol : String) : String :=
  symbol ++ ": no single solid fill, preview is unstyled"

end Iconsmith.Shape
