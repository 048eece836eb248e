import Iconsmith.Outline.Replay
import Iconsmith.Plane.Precision
import Iconsmith.Svg.PathData

/-!
# Contours

The outline of a shape is kept in single precision and in a tidy form: of moves in a row only the
last one stays, as does the first of closes in a row, and after a close a move begins what follows.
-/

namespace Iconsmith.Svg.Contour

/-- The tidy form of what follows `closed`, whether an outline was just closed, when `start` is
where that outline began. -/
def tidyFrom (start : Point Float32) (closed : Bool) :
    List (Segment Float32) → List (Segment Float32)
  | [] => []
  | .move _ :: .move p :: rest => tidyFrom start closed (.move p :: rest)
  | .move p :: rest => .move p :: tidyFrom p false rest
  | .close :: rest =>
    if closed then tidyFrom start true rest else .close :: tidyFrom start true rest
  | s :: rest => if closed then .move start :: s :: tidyFrom start false rest
    else s :: tidyFrom start false rest
termination_by segments => segments.length

/-- The tidy form of an outline. -/
def tidy (segments : List (Segment Float32)) : List (Segment Float32) :=
  tidyFrom Point.origin false segments

/-- The outline that path data draws. -/
def ofPathData (text : String) : List (Segment Float32) :=
  tidy ((Outline.ofCommands (PathData.read text)).map (Segment.map (Point.map Single.ofDouble)))

/-- The outline of a rectangle between two opposite corners. -/
def rectangle (low high : Point Float32) : List (Segment Float32) :=
  [.move low, .line ⟨high.x, low.y⟩, .line high, .line ⟨low.x, high.y⟩, .close]

end Iconsmith.Svg.Contour
