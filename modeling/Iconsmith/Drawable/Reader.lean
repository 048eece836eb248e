import Iconsmith.Drawable.Error
import Iconsmith.Graphic.Basic

/-!
# Reading drawables

A drawable is a document whose root is `<vector>`, with groups and paths below it. All attributes
are in one namespace, and a gradient is written as an element in place of the attribute that it
fills. Elements that have no meaning are passed over with a notice.
-/

namespace Iconsmith.Drawable

/-- The namespace of the attributes. -/
def attributeSpace : String := "http://schemas.android.com/apk/res/android"

/-- The namespace of the elements that stand for attributes. -/
def inlineSpace : String := "http://schemas.android.com/aapt"

/-- An element that was passed over. -/
inductive Notice where
  | clipPath
  | unknownElement (name : String)
  deriving DecidableEq, Repr

/-- The text of a notice. -/
def Notice.message : Notice → String
  | clipPath => "clip paths are not supported, skipping"
  | unknownElement name => s!"skipping unknown element <{name}>"

/-- A result with the notices that came up on the way to it. -/
structure Reading (α : Type) where
  notices : List Notice
  result : Except Error α

namespace Reading

instance : Monad Reading where
  pure x := ⟨[], .ok x⟩
  bind r f :=
    match r.result with
    | .ok x => ⟨r.notices ++ (f x).notices, (f x).result⟩
    | .error e => ⟨r.notices, .error e⟩

instance : MonadLift (Except Error) Reading := ⟨fun result => ⟨[], result⟩⟩

/-- Gives notice of something that was passed over. -/
def note (n : Notice) : Reading Unit := ⟨[n], .ok ()⟩

end Reading

/-! ### Attributes -/

/-- The text of an attribute. -/
def attribute? (n : Xml.Node) (name : String) : Option String :=
  n.attribute? (some attributeSpace) name

/-- The error that an attribute is missing. -/
def missing (n : Xml.Node) (name : String) : Error :=
  .document (.missingAttribute n.localName ("android:" ++ name))

/-- A value that must be there. -/
def require {α : Type} (n : Xml.Node) (name : String) : Option α → Except Error α
  | some x => .ok x
  | none => .error (missing n name)

/-- The number in an attribute, which may have blanks around it. -/
def number? (n : Xml.Node) (name : String) : Except Error (Option Float) :=
  match attribute? n name with
  | none => .ok none
  | some text =>
    match Numeral.floatOf? (Text.trim text.toList) with
    | some x => .ok (some x)
    | none => .error (.number name text)

/-- The number in an attribute, or what it is without the attribute. -/
def number (n : Xml.Node) (name : String) (default : Float) : Except Error Float := do
  return (← number? n name).getD default

/-- The point in two attributes, whose coordinates are zero without them. -/
def point (n : Xml.Node) (x y : String) : Except Error (Point Float) := do
  return ⟨← number n x 0, ← number n y 0⟩

/-- The unit written after a size; nothing stands for no unit. -/
def unit? (suffix : List Char) : Option (Option LengthUnit) :=
  if suffix.isEmpty then some none
  else (LengthUnit.ofSuffix? (String.ofList suffix)).map some

/-- The size written by a numeral and a unit. -/
def lengthOf? (text : List Char) : Option (Length Float) := do
  let (amount, rest) ← Numeral.read? text
  let unit ← unit? (Text.trim rest)
  return ⟨amount.toFloat, unit⟩

/-- The size in an attribute. Sizes that are kept elsewhere cannot be looked up. -/
def length? (n : Xml.Node) (name : String) : Except Error (Option (Length Float)) :=
  match attribute? n name with
  | none => .ok none
  | some text =>
    let value := Text.trim text.toList
    if value.head? = some '@' || value.head? = some '?' then
      .error (.reference (.unsupported (String.ofList value)))
    else
      match lengthOf? value with
      | some l => .ok (some l)
      | none => .error (.number name text)

/-- Whether a number lies between zero and one. -/
def isFraction (x : Float) : Bool :=
  decide (0 ≤ x) && decide (x ≤ 1)

/-- The opacity in an attribute; without it a thing is opaque. -/
def opacity (n : Xml.Node) (name : String) : Except Error Float := do
  match ← number? n name with
  | none => return 1
  | some x =>
    if isFraction x then return x else .error (.value name ((attribute? n name).getD ""))

/-- The value in an attribute that has a name for each of its values. -/
def choice {α : Type} (n : Xml.Node) (name : String) (ofName? : String → Option α) (default : α) :
    Except Error α :=
  match attribute? n name with
  | none => .ok default
  | some text =>
    match ofName? text with
    | some x => .ok x
    | none => .error (.value name text)

/-! ### Colors and gradients -/

/-- The color that a text stands for. -/
def color (t : Color.Table) (text : String) : Except Error String :=
  (Color.resolve t text).mapError Error.ofColor

/-- The gradient that is written in place of an attribute. -/
def inlineGradient? (n : Xml.Node) (name : String) : Option Xml.Node := do
  let setting ← n.elements.find? fun c =>
    c.space == some inlineSpace && c.localName == "attr" && c.attribute? none "name" == some name
  setting.elements.find? (·.localName = "gradient")

/-- The stop that an item of a gradient stands for. -/
def stop (t : Color.Table) (n : Xml.Node) : Except Error (ColorStop Float) := do
  let offset ← require n "offset" (← number? n "offset")
  let text ← require n "color" (attribute? n "color")
  return ⟨offset, ← color t text⟩

/-- The stops of a gradient that lists no items: its colors at the start, in the middle and at the
end. -/
def namedStops (t : Color.Table) (n : Xml.Node) : Except Error (List (ColorStop Float)) := do
  let places : List (String × Float) := [("startColor", 0), ("centerColor", 0.5), ("endColor", 1)]
  let given := places.filterMap fun (name, offset) => (attribute? n name).map (·, offset)
  given.mapM fun (text, offset) => return ⟨offset, ← color t text⟩

/-- The stops of a gradient: at least two, none of them outside the gradient. -/
def stops (t : Color.Table) (n : Xml.Node) : Except Error (List (ColorStop Float)) := do
  let items := n.elements.filter (·.localName = "item")
  let stops ← if items.isEmpty then namedStops t n else items.mapM (stop t)
  if stops.length < 2 then .error (.gradient (.fewStops stops.length))
  match stops.find? (!isFraction ·.offset) with
  | some s => .error (.gradient (.offsetOutside s.offset))
  | none => return stops

/-- The radius of a radial gradient. -/
def radius (n : Xml.Node) : Except Error Float := do
  let r ← require n "gradientRadius" (← number? n "gradientRadius")
  if r ≤ 0 then .error (.gradient (.radiusNotPositive r)) else return r

/-- The fill that a gradient stands for. -/
def gradient (t : Color.Table) (n : Xml.Node) : Except Error (Fill Float) := do
  let stops ← stops t n
  match (attribute? n "type").getD "linear" with
  | "linear" => return .linear stops (← point n "startX" "startY") (← point n "endX" "endY")
  | "radial" =>
    let r ← radius n
    return .radial stops (← point n "centerX" "centerY") r
  | "sweep" => .error (.unsupported .sweepGradient)
  | other => .error (.value "type" other)

/-- The fill of a path. A gradient goes before a color. -/
def fill? (t : Color.Table) (n : Xml.Node) : Except Error (Option (Fill Float)) :=
  match inlineGradient? n "android:fillColor" with
  | some g => return some (← gradient t g)
  | none =>
    match attribute? n "fillColor" with
    | some text => return some (.solid (← color t text))
    | none => return none

/-- The color of the stroke of a path. -/
def strokeColor? (t : Color.Table) (n : Xml.Node) : Except Error (Option String) :=
  if (inlineGradient? n "android:strokeColor").isSome then .error (.unsupported .gradientStroke)
  else
    match attribute? n "strokeColor" with
    | some text => return some (← color t text)
    | none => return none

/-! ### Elements -/

/-- The path that an element stands for. -/
def path (t : Color.Table) (n : Xml.Node) : Except Error (Path Float) := do
  let data ← require n "pathData" (attribute? n "pathData")
  let commands ← (PathData.read data).mapError Error.pathData
  let fill ← fill? t n
  let strokeColor ← strokeColor? t n
  let fillAlpha ← opacity n "fillAlpha"
  let strokeAlpha ← opacity n "strokeAlpha"
  let strokeWidth ← number? n "strokeWidth"
  let miter ← number n "strokeMiterLimit" Path.defaultMiter
  let cap ← choice n "strokeLineCap" LineCap.ofName? .butt
  let join ← choice n "strokeLineJoin" LineJoin.ofName? .miter
  let fillRule ← choice n "fillType" FillRule.ofName? .nonZero
  return {
    name := attribute? n "name"
    commands, fill, fillAlpha, strokeColor, strokeAlpha
    strokeWidth := strokeWidth.map fun w => { value := w }
    cap, join, miter, fillRule }

/-- The transform of a group. -/
def transform (n : Xml.Node) : Except Error (Transform Float) := do
  let rotation ← number n "rotation" 0
  let pivot ← point n "pivotX" "pivotY"
  let scaleX ← number n "scaleX" 1
  let scaleY ← number n "scaleY" 1
  let shift ← point n "translateX" "translateY"
  return { rotation, pivot, scale := ⟨scaleX, scaleY⟩, shift }

/-- The notice that an element is passed over. The elements that stand for attributes are read
elsewhere and get none. -/
def skip (n : Xml.Node) : Reading Unit :=
  if n.localName = "clip-path" then .note .clipPath
  else if n.localName = "attr" && n.space == some inlineSpace then pure ()
  else .note (.unknownElement n.localName)

mutual

/-- The node that an element stands for, if it is a group or a path. -/
def node? (t : Color.Table) : Xml.Node → Reading (Option (Node Float))
  | .element name attributes children => do
    let n := Xml.Node.element name attributes children
    if name.name = "group" then
      let m ← transform n
      return some (.group (attribute? n "name") m (← nodes t children))
    else if name.name = "path" then
      let p ← path t n
      return some (.path p)
    else
      skip n
      return none
  | .text _ | .remark => return none

/-- The nodes that the elements of a list stand for. -/
def nodes (t : Color.Table) : List Xml.Node → Reading (List (Node Float))
  | [] => return []
  | n :: ns => do
    let first ← node? t n
    let rest ← nodes t ns
    return first.toList ++ rest

end

/-- The size of the viewport, which is that of the drawable where it is not stated. -/
def viewport (n : Xml.Node) (width height : Option (Length Float)) :
    Except Error (Point Float) := do
  let w ← require n "viewportWidth" ((← number? n "viewportWidth").or (width.map (·.value)))
  let h ← require n "viewportHeight" ((← number? n "viewportHeight").or (height.map (·.value)))
  if 0 < w && 0 < h then return ⟨w, h⟩ else .error (.viewport ⟨w, h⟩)

/-- The graphic that a root element stands for. -/
def graphic (t : Color.Table) (root : Xml.Node) : Reading (Graphic Float) := do
  let width ← length? root "width"
  let height ← length? root "height"
  let size ← viewport root width height
  let nodes ← nodes t root.children
  return {
    width := width.getD { value := size.x }
    height := height.getD { value := size.y }
    viewport := size
    nodes }

/-- The graphic that a document stands for, where references are resolved in a table of colors. -/
def read (t : Color.Table) (text : String) : Reading (Graphic Float) := do
  let root ← (Xml.Document.readRoot "vector" text).mapError Error.document
  graphic t root

end Iconsmith.Drawable
