import Iconsmith.Svg.Bounds
import Iconsmith.Svg.Element
import Iconsmith.Svg.Scene

/-!
# Paint servers

A server is a paint that is defined apart from the shapes painted with it. Its coordinates are those
of the shape, or they go from zero to one across the rectangle that bounds the shape.
-/

namespace Iconsmith.Svg

/-- The coordinates in which something is given. -/
inductive Units where
  /-- Those of the shape. -/
  | shape
  /-- Those of the rectangle that bounds the shape. -/
  | box
  deriving DecidableEq, Repr

namespace Units

/-- The units that a text names. -/
def ofText? : String → Option Units
  | "userSpaceOnUse" => some shape
  | "objectBoundingBox" => some box
  | _ => none

/-- The units in an attribute. -/
def ofAttribute (n : Xml.Node) (name : String) (default : Units) : Units :=
  ((attribute? n name).bind ofText?).getD default

/-- What a hundred percent are, across and down. -/
def whole (view : Point Float32) : Units → Point Float32
  | shape => view
  | box => ⟨1, 1⟩

variable (u : Units) (view : Point Float32) (n : Xml.Node)

/-- A coordinate from left to right. -/
def across (name : String) (default : Measure) : Float32 :=
  measure n name (u.whole view).x default

/-- A coordinate from top to bottom. -/
def down (name : String) (default : Measure) : Float32 :=
  measure n name (u.whole view).y default

/-- A length in any direction. -/
def along (name : String) (default : Measure) : Float32 :=
  measure n name (diagonal (u.whole view)) default

/-- The point that two attributes give. -/
def point (x y : String) (defaultX defaultY : Measure) : Point Float32 :=
  ⟨u.across view n x defaultX, u.down view n y defaultY⟩

end Units

/-- The rectangle that bounds a shape, as far as there is one. -/
structure Extent where
  /-- Whether the points that control the outline span a rectangle. -/
  isSpread : Bool
  /-- The rectangle that the outline itself spans. -/
  box? : Option Bounds

/-- A paint that is defined apart from the shapes. -/
structure Server where
  units : Units
  /-- The coordinates of what the paint is made of. -/
  contentUnits : Units
  opacity : Float32
  /-- The paint, by the map from its units to the coordinates of the shape. -/
  paint : Affine Float32 → Paint

namespace Server

/-- A color, which is the same for all shapes. -/
def plain (c : Rgb) (opacity : Float32) : Server :=
  ⟨.shape, .shape, opacity, fun _ => .color c⟩

/-- The paint for a shape. It cannot be used where its units are missing, and it comes to nothing
where they turn out to be missing later. -/
def paintFor? (v : Server) (e : Extent) : Option (Option Paint) :=
  if v.units = .box && !e.isSpread then none
  else
    match v.units, v.contentUnits, e.box? with
    | .shape, .shape, _ | .shape, .box, some _ => some (some (v.paint Affine.identity))
    | .box, _, some b => some (some (v.paint b.fromUnit))
    | _, _, none => some none

end Server

end Iconsmith.Svg
