import Iconsmith.Svg.Element
import Iconsmith.Svg.Fitting

/-!
# Pictures

An element embeds a picture by a link to it. The picture is fitted into the rectangle of its
element, whose missing sides follow from the size of the picture.
-/

namespace Iconsmith.Svg

/-- The sizes of pictures, by the links that lead to them. -/
abbrev PictureSizes := String → Option (Point Float32)

/-- A picture and where it is shown. -/
structure Picture where
  size : Point Float32
  /-- The rectangle of the element. -/
  room : Bounds
  /-- The rectangle that the picture fills, in the coordinates of the element. -/
  shown : Bounds
  deriving Repr

namespace Picture

/-- The size that an element gives a picture. With one side the picture keeps its proportions. -/
def roomSize (view : Point Float32) (n : Xml.Node) (size : Point Float32) : Point Float32 :=
  let across := (attribute? n "width").bind Measure.ofText?
  let down := (attribute? n "height").bind Measure.ofText?
  match across.map (·.resolve view.x), down.map (·.resolve view.y) with
  | none, none => size
  | some w, none => ⟨w, size.y * (w / size.x)⟩
  | none, some h => ⟨size.x * (h / size.y), h⟩
  | some w, some h => ⟨w, h⟩

/-- The picture that an element embeds, if it has a size. -/
def ofElement? (sizes : PictureSizes) (view : Point Float32) (n : Xml.Node) : Option Picture := do
  let size ← sizes (← attribute? n "href")
  let low : Point Float32 :=
    ⟨measure n "x" view.x (.user 0), measure n "y" view.y (.user 0)⟩
  let room : Bounds := ⟨low, roomSize view n size + low⟩
  if !room.isProper then none
  let fitting := ((attribute? n "preserveAspectRatio").bind Fitting.ofText?).getD .default
  return ⟨size, room, fitting.rectangle size room⟩

/-- The map from a picture to the coordinates of its element. -/
def placement (p : Picture) : Affine Float32 where
  xAxis := ⟨p.shown.size.x / p.size.x, 0⟩
  yAxis := ⟨0, p.shown.size.y / p.size.y⟩
  origin := p.shown.low

/-- The rectangle that counts as the bounds of a picture under a map. The rectangle of the element
is placed as if it were part of the picture. -/
def bounds? (m : Affine Float32) (p : Picture) : Option Bounds :=
  let m := Placement.compose m p.placement
  (Bounds.ofPoints? (p.room.corners.map m.apply)).filter Bounds.isProper

end Picture

end Iconsmith.Svg
