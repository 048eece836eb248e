import Iconsmith.Graphic.Basic
import Iconsmith.ImageVector.Code

/-!
# Building image vectors

A graphic becomes a tree of calls to a builder: one call for each path and each drawing command in
it, and one for each group that is more than a list of its children. Arguments that have their
default value are left out.
-/

namespace Iconsmith.ImageVector

/-- The package of the colors and brushes. -/
def graphicsName (name : String) : String :=
  "androidx.compose.ui.graphics." ++ name

/-- The package of the builder. -/
def vectorName (name : String) : String :=
  graphicsName ("vector." ++ name)

/-- The import of offsets. -/
def offsetName : String := "androidx.compose.ui.geometry.Offset"

/-! ### Commands -/

/-- The name of the call for a verb. -/
def callName : Verb → String
  | .move => "moveTo"
  | .line => "lineTo"
  | .horizontal => "horizontalLineTo"
  | .vertical => "verticalLineTo"
  | .cubic => "curveTo"
  | .smoothCubic => "reflectiveCurveTo"
  | .quadratic => "quadTo"
  | .smoothQuadratic => "reflectiveQuadTo"
  | .arc => "arcTo"
  | .close => "close"

/-- The literal of an operand. -/
def operandLiteral : Operand Float → String
  | .number x => floatLiteral x
  | .flag on => if on then "true" else "false"

/-- The call for a drawing command. -/
def commandCall (c : Command Float) : String :=
  callName c.verb ++ (if c.isRelative then "Relative" else "")
    ++ "(" ++ Source.commaList (c.operands.map operandLiteral) ++ ")"

/-! ### Brushes -/

/-- A color. -/
def colorCall (color : String) : String :=
  "Color(0x" ++ color ++ ")"

/-- A point. -/
def offsetCall (p : Point Float) : String :=
  "Offset(" ++ floatLiteral p.x ++ ", " ++ floatLiteral p.y ++ ")"

/-- A brush of a single color. -/
def solidBrush (color : String) : Phrase where
  text := "SolidColor(" ++ colorCall color ++ ")"
  imports := [graphicsName "SolidColor", graphicsName "Color"]

/-- A color stop. -/
def stopPair (s : ColorStop Float) : String :=
  floatLiteral s.offset ++ " to " ++ colorCall s.color

/-- The stops of a gradient. -/
def stopPairs (stops : List (ColorStop Float)) : String :=
  Source.commaList (stops.map stopPair)

/-- A brush that blends colors. -/
def gradientBrush (text : String) : Phrase where
  text := "Brush." ++ text
  imports := [graphicsName "Brush", offsetName, graphicsName "Color"]

/-- The brush of a fill. -/
def brush : Fill Float → Phrase
  | .solid color => solidBrush color
  | .linear stops start finish =>
    gradientBrush ("linearGradient(" ++ stopPairs stops ++ ", start = " ++ offsetCall start
      ++ ", end = " ++ offsetCall finish ++ ")")
  | .radial stops center radius =>
    gradientBrush ("radialGradient(" ++ stopPairs stops ++ ", center = " ++ offsetCall center
      ++ ", radius = " ++ floatLiteral radius ++ ")")

/-! ### Arguments -/

/-- A named argument. -/
def argument (name : String) (value : Phrase) : Phrase where
  text := name ++ " = " ++ value.text
  imports := value.imports

/-- The argument of a name, if there is one. -/
def nameArgument (name : Option String) : List Phrase :=
  (name.map fun n => argument "name" ⟨stringLiteral n, []⟩).toList

/-- The argument of a number, unless it has its default value. -/
def numberArgument (name : String) (x default : Float) : List Phrase :=
  if x == default then [] else [argument name ⟨floatLiteral x, []⟩]

/-- The argument of a named value, unless it is the default. The name is that of a constant of a
type. -/
def choiceArgument {α : Type} [DecidableEq α] (name type : String) (constant : α → String)
    (x default : α) : List Phrase :=
  if x = default then []
  else [argument name ⟨type ++ "." ++ constant x, [graphicsName type]⟩]

/-- The constant of a cap. -/
def capName : LineCap → String
  | .butt => "Butt"
  | .round => "Round"
  | .square => "Square"

/-- The constant of a join. -/
def joinName : LineJoin → String
  | .miter => "Miter"
  | .round => "Round"
  | .bevel => "Bevel"

/-- The constant of a fill rule. -/
def fillRuleName : FillRule → String
  | .nonZero => "NonZero"
  | .evenOdd => "EvenOdd"

/-- The arguments of the call for a path. -/
def pathArguments (p : Path Float) : List Phrase :=
  nameArgument p.name
    ++ (p.fill.map fun f => argument "fill" (brush f)).toList
    ++ numberArgument "fillAlpha" p.fillAlpha 1
    ++ (p.strokeColor.map fun c => argument "stroke" (solidBrush c)).toList
    ++ numberArgument "strokeAlpha" p.strokeAlpha 1
    ++ (p.strokeWidth.map fun w => argument "strokeLineWidth" ⟨floatLiteral w.value, []⟩).toList
    ++ choiceArgument "strokeLineCap" "StrokeCap" capName p.cap .butt
    ++ choiceArgument "strokeLineJoin" "StrokeJoin" joinName p.join .miter
    ++ numberArgument "strokeLineMiter" p.miter Path.defaultMiter
    ++ choiceArgument "pathFillType" "PathFillType" fillRuleName p.fillRule .nonZero

/-- The arguments of the call for a group. -/
def groupArguments (name : Option String) (t : Transform Float) : List Phrase :=
  nameArgument name
    ++ numberArgument "rotate" t.rotation 0
    ++ numberArgument "pivotX" t.pivot.x 0 ++ numberArgument "pivotY" t.pivot.y 0
    ++ numberArgument "scaleX" t.scale.x 1 ++ numberArgument "scaleY" t.scale.y 1
    ++ numberArgument "translationX" t.shift.x 0
    ++ numberArgument "translationY" t.shift.y 0

/-! ### Calls -/

/-- The first lines of the call for a path, up to the opening brace. -/
def pathHead (arguments : List Phrase) : List String :=
  if arguments.isEmpty then ["path \x7b"]
  else "path(" :: Source.indent (arguments.map (·.text ++ ",")) ++ [") \x7b"]

/-- The call for a path. -/
def pathDraft (p : Path Float) : Draft :=
  let arguments := pathArguments p
  { lines := pathHead arguments ++ Source.indent (p.commands.map commandCall) ++ ["\x7d"]
    imports := vectorName "path" :: arguments.flatMap (·.imports) }

/-- The call for a group around its content. A group without arguments is its content alone. -/
def groupDraft (arguments : List Phrase) (inside : Draft) : Draft :=
  if arguments.isEmpty then inside
  else
    let head : Phrase :=
      { text := "group(" ++ Source.commaList (arguments.map (·.text)) ++ ")"
        imports := vectorName "group" :: arguments.flatMap (·.imports) }
    Draft.block head inside

mutual

/-- The calls for a node. -/
def nodeDraft : Node Float → Draft
  | .group name transform children =>
    groupDraft (groupArguments name transform) (nodesDraft children)
  | .path p => pathDraft p

/-- The calls for a list of nodes. -/
def nodesDraft : List (Node Float) → Draft
  | [] => .empty
  | n :: ns => nodeDraft n ++ nodesDraft ns

end

end Iconsmith.ImageVector
