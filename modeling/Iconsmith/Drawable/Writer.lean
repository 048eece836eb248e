import Iconsmith.Drawable.Reader
import Iconsmith.PathData.Writer
import Iconsmith.Xml.Layout

/-!
# Writing drawables

A graphic is laid out as a document that `Drawable.read` takes for the same graphic. What has its
default value is left out.
-/

namespace Iconsmith.Drawable

/-- The text of a number in an attribute. -/
def numberText (x : Float) : String :=
  Decimal.Style.plain.unsignedZero x

/-- The text of a size. -/
def lengthText (l : Length Float) : String :=
  numberText l.value ++ (l.unit.map LengthUnit.suffix).getD ""

/-! ### Settings -/

/-- A setting of an attribute. -/
def setting (name value : String) : Xml.Setting :=
  ("android:" ++ name, value)

/-- The setting of a name, if there is one. -/
def nameSetting (name : Option String) : List Xml.Setting :=
  (name.map fun n => setting "name" (Xml.escaped n)).toList

/-- The setting of a number, unless it has its default value. -/
def numberSetting (name : String) (x default : Float) : List Xml.Setting :=
  if x == default then [] else [setting name (numberText x)]

/-- The setting of a color, if there is one. -/
def colorSetting (name : String) (color : Option String) : List Xml.Setting :=
  (color.map fun c => setting name ("#" ++ c)).toList

/-- The setting of a named value, unless it is the default. -/
def choiceSetting {α : Type} [DecidableEq α] (name : String) (nameOf : α → String) (x default : α) :
    List Xml.Setting :=
  if x = default then [] else [setting name (nameOf x)]

/-- The settings of two coordinates. -/
def pointSettings (x y : String) (p : Point Float) : List Xml.Setting :=
  [setting x (numberText p.x), setting y (numberText p.y)]

/-! ### Elements -/

/-- The settings of a gradient; a color is no gradient and has none. -/
def gradientSettings : Fill Float → List Xml.Setting
  | .solid _ => []
  | .linear _ start finish =>
    setting "type" "linear" :: pointSettings "startX" "startY" start
      ++ pointSettings "endX" "endY" finish
  | .radial _ center radius =>
    setting "type" "radial" :: pointSettings "centerX" "centerY" center
      ++ [setting "gradientRadius" (numberText radius)]

/-- The item of a color stop. -/
def stopElement (s : ColorStop Float) : Xml.Layout :=
  .leaf "item" [setting "offset" (numberText s.offset), setting "color" ("#" ++ s.color)]

/-- A gradient in place of the attribute of a fill. -/
def gradientElement (f : Fill Float) : Xml.Layout :=
  .branch "aapt:attr" [("name", "android:fillColor")]
    [.branch "gradient" (gradientSettings f) (f.stops.map stopElement)]

/-- The color of a solid fill. -/
def solidColor? : Fill Float → Option String
  | .solid color => some color
  | .linear .. | .radial .. => none

/-- The settings of a path. -/
def pathSettings (p : Path Float) : List Xml.Setting :=
  nameSetting p.name
    ++ [setting "pathData" (PathData.write p.commands)]
    ++ colorSetting "fillColor" (p.fill.bind solidColor?)
    ++ numberSetting "fillAlpha" p.fillAlpha 1
    ++ colorSetting "strokeColor" p.strokeColor
    ++ numberSetting "strokeAlpha" p.strokeAlpha 1
    ++ (p.strokeWidth.map fun w => setting "strokeWidth" (numberText w.value)).toList
    ++ choiceSetting "strokeLineCap" LineCap.name p.cap .butt
    ++ choiceSetting "strokeLineJoin" LineJoin.name p.join .miter
    ++ numberSetting "strokeMiterLimit" p.miter Path.defaultMiter
    ++ choiceSetting "fillType" FillRule.name p.fillRule .nonZero

/-- The element of a path, with its gradient inside it. -/
def pathElement (p : Path Float) : Xml.Layout :=
  match p.fill.filter Fill.isGradient with
  | some f => .branch "path" (pathSettings p) [gradientElement f]
  | none => .leaf "path" (pathSettings p)

/-- The settings of a transform. -/
def transformSettings (t : Transform Float) : List Xml.Setting :=
  numberSetting "rotation" t.rotation 0
    ++ numberSetting "pivotX" t.pivot.x 0 ++ numberSetting "pivotY" t.pivot.y 0
    ++ numberSetting "scaleX" t.scale.x 1 ++ numberSetting "scaleY" t.scale.y 1
    ++ numberSetting "translateX" t.shift.x 0
    ++ numberSetting "translateY" t.shift.y 0

mutual

/-- The element of a group or a path. -/
def nodeElement : Node Float → Xml.Layout
  | .group name transform children =>
    .branch "group" (nameSetting name ++ transformSettings transform) (nodeElements children)
  | .path p => pathElement p

/-- The elements of a list of nodes. -/
def nodeElements : List (Node Float) → List Xml.Layout
  | [] => []
  | n :: ns => nodeElement n :: nodeElements ns

end

/-- The text of a setting on a line that continues a tag. -/
def continuation (settings : List Xml.Setting) : String :=
  "   " ++ String.join (settings.map Xml.Setting.text)

/-- The start tag of the root, on three lines. -/
def rootLines (g : Graphic Float) : List String :=
  [Xml.Layout.opening 0 "vector" [("xmlns:android", attributeSpace), ("xmlns:aapt", inlineSpace)],
   continuation [setting "width" (lengthText g.width), setting "height" (lengthText g.height)],
   continuation (pointSettings "viewportWidth" "viewportHeight" g.viewport) ++ ">"]

/-- The document of a graphic. -/
def write (g : Graphic Float) : String :=
  String.join ((rootLines g ++ Xml.Layout.linesOf 1 (nodeElements g.nodes) ++ ["</vector>"]).map
    (· ++ "\n"))

end Iconsmith.Drawable
