import Iconsmith.Outline.Segment
import Iconsmith.Svg.Measure

/-!
# Bounds

The smallest rectangle along the axes that holds given points, or a given outline. A curve reaches
farthest at its ends or where one of its coordinates turns back.
-/

namespace Iconsmith.Svg

/-- A rectangle along the axes. -/
structure Bounds where
  low : Point Float32
  high : Point Float32
  deriving Repr

namespace Bounds

/-- The width and the height. -/
def size (b : Bounds) : Point Float32 := b.high - b.low

/-- The lesser of two numbers. -/
def lesser (x y : Float32) : Float32 := if y < x then y else x

/-- The greater of two numbers. -/
def greater (x y : Float32) : Float32 := if x < y then y else x

/-- The smallest rectangle that holds two rectangles. -/
def join (a b : Bounds) : Bounds where
  low := ⟨lesser a.low.x b.low.x, lesser a.low.y b.low.y⟩
  high := ⟨greater a.high.x b.high.x, greater a.high.y b.high.y⟩

/-- Whether a rectangle has finite corners and a finite size. -/
def isFinite (b : Bounds) : Bool :=
  [b.low, b.high, b.size].all fun p => p.x.isFinite && p.y.isFinite

/-- Whether a rectangle is finite and neither a point nor a line. -/
def isProper (b : Bounds) : Bool :=
  isExtent b.size.x && isExtent b.size.y && b.isFinite

/-- The smallest rectangle that holds all rectangles of a list. -/
def joinAll? : List Bounds → Option Bounds
  | [] => none
  | b :: bs => some (bs.foldl join b)

/-- The smallest rectangle that holds some points, all of them finite. -/
def ofPoints? (ps : List (Point Float32)) : Option Bounds :=
  if ps.all fun p => p.x.isFinite && p.y.isFinite then
    (joinAll? (ps.map fun p => ⟨p, p⟩)).filter isFinite
  else none

/-- The corners of a rectangle. -/
def corners (b : Bounds) : List (Point Float32) :=
  [b.low, ⟨b.high.x, b.low.y⟩, b.high, ⟨b.low.x, b.high.y⟩]

/-- The map from the unit square to a rectangle. -/
def fromUnit (b : Bounds) : Affine Float32 where
  xAxis := ⟨b.size.x, 0⟩
  yAxis := ⟨0, b.size.y⟩
  origin := b.low

/-! ### Where a curve turns back -/

/-- The quotient of two numbers, if it lies strictly between zero and one. -/
def unitQuotient? (x y : Float32) : Option Float32 :=
  let (x, y) := if x < 0 then (-x, -y) else (x, y)
  let q := x / y
  if y == 0 || decide (y ≤ x) || !decide (0 < q) || !decide (q < 1) then none else some q

/-- The roots of `a t² + b t + c` strictly between zero and one. -/
def unitRoots (a b c : Float32) : List Float32 :=
  if a == 0 then (unitQuotient? (-c) b).toList
  else
    let (a', b', c') := (Single.toDouble a, Single.toDouble b, Single.toDouble c)
    let d := b' * b' - 4 * a' * c'
    let r := Single.ofDouble d.sqrt
    if d < 0 || !r.isFinite then []
    else
      let q := if b < 0 then -(b - r) / 2 else -(b + r) / 2
      (unitQuotient? q a).toList ++ (unitQuotient? c q).toList

/-- A coordinate of a quadratic curve at a time. -/
def quadraticAt (a b c t : Float32) : Float32 :=
  ((c - (b + b) + a) * t + ((b - a) + (b - a))) * t + a

/-- The times at which a coordinate of a quadratic curve turns back. -/
def quadraticTurns (a b c : Float32) : List Float32 :=
  (unitQuotient? (a - b) (a - b - b + c)).toList

/-- A coordinate of a cubic curve at a time. -/
def cubicAt (a b c d t : Float32) : Float32 :=
  (((d + 3 * (b - c) - a) * t + 3 * (c - (b + b) + a)) * t + 3 * (b - a)) * t + a

/-- The times at which a coordinate of a cubic curve turns back. -/
def cubicTurns (a b c d : Float32) : List Float32 :=
  unitRoots (d - a + 3 * (b - c)) (2 * (a - b - b + c)) (b - a)

/-- The points that a segment from `p` may reach farthest at. -/
def reaches (p : Point Float32) : Segment Float32 → List (Point Float32)
  | .move q | .line q => [q]
  | .quadratic c q =>
    (quadraticTurns p.x c.x q.x ++ quadraticTurns p.y c.y q.y).map
        (fun t => ⟨quadraticAt p.x c.x q.x t, quadraticAt p.y c.y q.y t⟩) ++ [q]
  | .cubic c d q =>
    (cubicTurns p.x c.x d.x q.x ++ cubicTurns p.y c.y d.y q.y).map
        (fun t => ⟨cubicAt p.x c.x d.x q.x t, cubicAt p.y c.y d.y q.y t⟩) ++ [q]
  | .close => []

/-- The points that an outline from `p` may reach farthest at. -/
def reachesAll (p : Point Float32) : List (Segment Float32) → List (Point Float32)
  | [] => []
  | s :: segments => reaches p s ++ reachesAll (s.finish?.getD p) segments

/-- The smallest rectangle that holds the points of an outline, those that control a curve among
them. -/
def ofControls? (outline : List (Segment Float32)) : Option Bounds :=
  ofPoints? (outline.flatMap Segment.points)

/-- The smallest rectangle that holds an outline. -/
def ofOutline? (outline : List (Segment Float32)) : Option Bounds :=
  ofPoints? (reachesAll Point.origin outline)

end Bounds

end Iconsmith.Svg
