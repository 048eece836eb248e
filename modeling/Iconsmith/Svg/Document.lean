import Iconsmith.Svg.Style

/-!
# Reading scenes

An SVG document gives a scene whose size is that of its root. The rectangle `viewBox` is fitted into
it. Where neither gives a size, the scene is as large as what is drawn.
-/

namespace Iconsmith.Svg

/-- Why a document gives no scene. -/
inductive Fault where
  /-- The text is no document of this kind, or elements are nested too deep in it. -/
  | malformed
  | invalidSize
  deriving DecidableEq, Repr

/-- The message of a fault. -/
def Fault.message : Fault → String
  | malformed => "SVG data parsing failed"
  | invalidSize => "SVG has an invalid size"

/-! ### Shapes -/

/-- An item and the rectangle that bounds it in the coordinates of the scene. -/
structure Drawn where
  item : Item
  bounds : Bounds

/-- The bounds of an outline under a map. -/
def placedBounds? (m : Affine Float32) (outline : List (Segment Float32)) : Option Bounds :=
  if Placement.isSkewed m then do
    let placed := outline.map (Segment.map m.apply)
    let _ ← Bounds.ofControls? placed
    Bounds.ofOutline? placed
  else do
    let b ← Bounds.ofOutline? outline
    Bounds.ofPoints? (b.corners.map m.apply)

/-- The rectangle to which paints of an outline may refer. -/
def extentOf (outline : List (Segment Float32)) : Extent where
  isSpread := (Bounds.ofControls? outline).any Bounds.isProper
  box? := (Bounds.ofOutline? outline).filter Bounds.isProper

/-- Whether elements can be seen at all. -/
def isVisible (c : Chain) : Bool :=
  inherited c "visibility" visibilityOf? true
where
  /-- What a text says about visibility. -/
  visibilityOf? : String → Option Bool
    | "visible" => some true
    | "hidden" | "collapse" => some false
    | _ => none

/-- The shape that an element draws under a map. -/
def shape? (s : Setting) (m : Affine Float32) (c : Chain) (n : Xml.Node) : Option Drawn := do
  let outline ← contour? s n
  let bounds ← placedBounds? m outline
  let extent := extentOf outline
  let interior := interior? s c extent
  let stroke := stroke? s c extent
  let shape : Shape := {
    id := (attribute? n "id").getD ""
    isVisible := isVisible c && (interior.isSome || stroke.isSome)
    outline := outline.map (Segment.map (Point.map Single.toDouble))
    placement := m.map Single.toDouble
    interior := interior.join
    stroke := stroke.join }
  return ⟨.shape shape, bounds⟩

/-- The picture that an element embeds under a map. -/
def image? (s : Setting) (m : Affine Float32) (n : Xml.Node) : Option Drawn := do
  let p ← picture? s n
  return ⟨.image, ← p.bounds? m⟩

/-! ### Trees -/

mutual

/-- What an element draws, where `outer` and `around` are the map and the elements around it. -/
def drawn (s : Setting) (outer : Affine Float32) (around : Chain) : Xml.Node → List Drawn
  | n@(.element _ _ children) =>
    if isSvgElement n && isShown n then
      let m := Placement.compose outer (placement n "transform")
      if isGroup n then drawnAll s m (n :: around) children
      else ((image? s m n).or (shape? s m (n :: around) n)).toList
    else []
  | _ => []

/-- What some nodes draw, one after the other. -/
def drawnAll (s : Setting) (outer : Affine Float32) (around : Chain) :
    List Xml.Node → List Drawn
  | [] => []
  | n :: ns => drawn s outer around n ++ drawnAll s outer around ns

end

/-! ### Sizes -/

/-- The rectangle that the attribute `viewBox` gives. -/
def viewBox? (root : Xml.Node) : Option Bounds := do
  let (numbers, _) ← readItems? 4 (← attribute? root "viewBox").toList
  match numbers with
  | [x, y, w, h] =>
    let low : Point Float32 := ⟨Single.ofDouble x, Single.ofDouble y⟩
    let box : Bounds := ⟨low, ⟨Single.ofDouble w + low.x, Single.ofDouble h + low.y⟩⟩
    if 0 < w && 0 < h && box.isProper then some box else none
  | _ => none

/-- The measure of a side of a document. -/
def side (root : Xml.Node) (name : String) : Measure :=
  ((attribute? root name).bind Measure.ofText?).getD (.percent 100)

/-- The length of a side of a document in a view, of which it may be a percentage. Without a view it
may be a percentage of a hundred. -/
def sideLength (whole? : Option Float32) (m : Measure) : Float32 :=
  match m.unit, whole? with
  | .percent, some whole => whole * (Single.ofDouble m.amount / 100)
  | _, _ => m.resolve 100

/-- The size of what is drawn, measured from the origin. -/
def contentSize? (ds : List Drawn) : Option (Point Float32) := do
  let b ← Bounds.joinAll? (ds.map (·.bounds))
  if isExtent b.high.x && isExtent b.high.y then some b.high else none

/-- The scene of a document with a given root. -/
def sceneOf (pictures : PictureSizes) (root : Xml.Node) : Except Fault Scene :=
  let box? := viewBox? root
  let width := side root "width"
  let height := side root "height"
  let size : Point Float32 :=
    ⟨sideLength (box?.map (·.size.x)) width, sideLength (box?.map (·.size.y)) height⟩
  if !isExtent size.x || !isExtent size.y then .error .invalidSize
  else
    let box := box?.getD ⟨Point.origin, size⟩
    let fitting := ((attribute? root "preserveAspectRatio").bind Fitting.ofText?).getD .default
    let ds := drawn ⟨root, box.size, pictures⟩ (fitting.map box size) [] root
    let isOpen := box?.isNone && (width.unit = .percent || height.unit = .percent)
    let size := if isOpen then (contentSize? ds).getD size else size
    .ok ⟨size.map Single.toDouble, ds.map (·.item)⟩

/-- The greatest depth of a node inside the root. -/
def maxDepth : Nat := 1024

/-- The scene of a text. -/
def Scene.ofText (pictures : PictureSizes) (text : String) : Except Fault Scene :=
  match Xml.Document.readTyped? text with
  | none => .error .malformed
  | some root =>
    if depth root ≤ maxDepth && isSvgElement root && root.localName = "svg" then
      sceneOf pictures root
    else .error .malformed

end Iconsmith.Svg
