import Iconsmith.Decimal.Style
import Iconsmith.Outline.Replay
import Iconsmith.Source.Code

/-!
# Drawing shapes

A shape draws its outline into a rectangle. Each segment becomes a statement whose points are
fractions of the width and the height of the rectangle.
-/

namespace Iconsmith.Shape

/-- A number as a literal. -/
def numberLiteral (x : Float) : String :=
  Decimal.Style.literal.unsignedZero x

/-- A point of the viewport as a point of the rectangle. -/
def pointCall (viewport p : Point Float) : String :=
  "CGPoint(x: rect.minX + " ++ numberLiteral (p.x / viewport.x)
    ++ " * width, y: rect.minY + " ++ numberLiteral (p.y / viewport.y) ++ " * height)"

/-- A labelled argument. -/
def pointArgument (viewport : Point Float) (label : String) (p : Point Float) : String :=
  label ++ ": " ++ pointCall viewport p

/-- The method that draws a segment. -/
def methodName : Segment Float → String
  | .move _ => "move"
  | .line _ => "addLine"
  | .quadratic .. => "addQuadCurve"
  | .cubic .. => "addCurve"
  | .close => "closeSubpath"

/-- The points of a segment with their labels, the end first. -/
def labelledPoints : Segment Float → List (String × Point Float)
  | .move p | .line p => [("to", p)]
  | .quadratic c p => [("to", p), ("control", c)]
  | .cubic c₁ c₂ p => [("to", p), ("control1", c₁), ("control2", c₂)]
  | .close => []

/-- The statement that draws a segment. -/
def statement (viewport : Point Float) (s : Segment Float) : String :=
  let arguments := (labelledPoints s).map fun (label, p) => pointArgument viewport label p
  "path." ++ methodName s ++ "(" ++ Source.commaList arguments ++ ")"

/-- The statements that draw a graphic. -/
def statements (g : Graphic Float) : List String :=
  g.outline.map (statement g.viewport)

end Iconsmith.Shape
