import Iconsmith.Outline.Replay
import Iconsmith.Svg.Scene

/-!
# Flattening scenes

A scene becomes a graphic without groups: every outline is mapped to the coordinates of the scene
and drawn by absolute commands. Lengths grow with the square root of the area that a map spans.
What a graphic cannot express is left out or made simpler, with a notice.
-/

namespace Iconsmith.Svg

/-- Something that a graphic cannot express. -/
inductive Notice where
  | image
  | gradientStroke
  | pattern
  deriving DecidableEq, Repr

/-- The text of a notice. -/
def Notice.message : Notice → String
  | image => "skipping embedded image"
  | gradientStroke => "gradient stroke flattened to its first stop color"
  | pattern => "pattern paint is not supported, leaving the path unpainted"

/-! ### Paints -/

/-- The stop of a graphic for the stop of a scene. -/
def GradientStop.flat (s : GradientStop) : ColorStop Float :=
  ⟨s.offset, s.color.digits s.opacity⟩

/-- By how much a map makes lengths grow. -/
def growth (m : Affine Float) : Float :=
  m.determinant.abs.sqrt

/-- A gradient, or the color of its only stop if it has fewer than two. -/
def orOnlyColor (f : Fill Float) : Option (Fill Float) :=
  if f.isGradient && f.stops.length < 2 then f.stops.head?.map fun s => .solid s.color else some f

/-- The fill that a paint gives under a map. -/
def Paint.fill? (m : Affine Float) : Paint → Option (Fill Float)
  | color c => some (.solid (c.digits 1))
  | linear stops placement start finish =>
    let m := m * placement
    orOnlyColor (.linear (stops.map GradientStop.flat) (m.apply start) (m.apply finish))
  | radial stops placement center radius =>
    let m := m * placement
    orOnlyColor (.radial (stops.map GradientStop.flat) (m.apply center) (radius * growth m))
  | pattern => none

/-- The color that a fill begins with. -/
def firstColor? : Fill Float → Option String
  | .solid color => some color
  | f => f.stops.head?.map (·.color)

/-- The notices about a paint for a region. -/
def Paint.notices : Paint → List Notice
  | pattern => [.pattern]
  | _ => []

/-- The notices about a paint for a line, which has one color. -/
def Paint.strokeNotices (m : Affine Float) (p : Paint) : List Notice :=
  p.notices ++ if ((p.fill? m).filter Fill.isGradient).isSome then [.gradientStroke] else []

/-! ### Shapes -/

/-- The absolute command that draws a segment. -/
def commandOf : Segment Float → Command Float
  | .move p => .moveTo false p
  | .line p => .lineTo false p
  | .quadratic c p => .quadraticTo false c p
  | .cubic c d p => .cubicTo false c d p
  | .close => .close

namespace Shape

/-- The commands that draw a shape in the coordinates of the scene. -/
def commands (s : Shape) : List (Command Float) :=
  s.outline.map fun segment => commandOf (segment.map s.placement.apply)

/-- The path of a graphic for a shape. -/
def path (s : Shape) : Path Float :=
  let plain : Path Float :=
    { Path.ofCommands s.commands with name := if s.id.isEmpty then none else some s.id }
  let filled : Path Float :=
    match s.interior with
    | none => plain
    | some i =>
      { plain with
        fill := i.paint.fill? s.placement
        fillAlpha := i.opacity
        fillRule := i.rule }
  match s.stroke with
  | none => filled
  | some t =>
    { filled with
      strokeColor := (t.paint.fill? s.placement).bind firstColor?
      strokeAlpha := t.opacity
      strokeWidth := some ⟨t.width * growth s.placement, none⟩
      cap := t.cap
      join := t.join
      miter := t.miter }

/-- The notices about a shape. -/
def notices (s : Shape) : List Notice :=
  (s.interior.map fun i => i.paint.notices).getD []
    ++ (s.stroke.map fun t => t.paint.strokeNotices s.placement).getD []

/-- Whether there is anything of a shape to see. -/
def isDrawn (s : Shape) : Bool :=
  s.isVisible && !s.outline.isEmpty

end Shape

namespace Item

/-- The node of a graphic for an item, if it is drawn. -/
def node? : Item → Option (Node Float)
  | shape s => if s.isDrawn then some (.path s.path) else none
  | image => none

/-- The notices about an item. -/
def notices : Item → List Notice
  | shape s => if s.isDrawn then s.notices else []
  | image => [.image]

end Item

namespace Scene

/-- The graphic of a scene, whose unit is the density-independent pixel. -/
def graphic (s : Scene) : Graphic Float where
  width := ⟨s.size.x, some .dp⟩
  height := ⟨s.size.y, some .dp⟩
  viewport := s.size
  nodes := s.items.filterMap Item.node?

/-- The notices about what the graphic of a scene leaves out. -/
def notices (s : Scene) : List Notice :=
  s.items.flatMap Item.notices

end Scene

end Iconsmith.Svg
