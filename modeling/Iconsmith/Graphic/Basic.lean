import Iconsmith.Graphic.Command

/-!
# Vector graphics

A graphic is a tree of groups and paths, drawn in the coordinates of its viewport. Groups carry a
transform for what is below them; paths carry drawing commands and a style.
-/

namespace Iconsmith

/-! ### Sizes -/

/-- The units in which a size can be written. -/
inductive LengthUnit where
  | dp
  | px
  | pt
  | inch
  | mm
  deriving DecidableEq, Repr

namespace LengthUnit

/-- The suffix of a unit. -/
def suffix : LengthUnit → String
  | dp => "dp"
  | px => "px"
  | pt => "pt"
  | inch => "in"
  | mm => "mm"

/-- The unit with a given suffix, of which density-independent pixels have two. -/
def ofSuffix? : String → Option LengthUnit
  | "dp" | "dip" => some dp
  | "px" => some px
  | "pt" => some pt
  | "in" => some inch
  | "mm" => some mm
  | _ => none

end LengthUnit

/-- A size, with the unit it was written in if there was one. -/
structure Length (α : Type) where
  value : α
  unit : Option LengthUnit := none
  deriving BEq, Repr

/-- The size in density-independent pixels, of which there are 160 to the inch. -/
def Length.toDp (l : Length Float) : Float :=
  match l.unit with
  | none | some .dp | some .px => l.value
  | some .pt => l.value * 160 / 72
  | some .inch => l.value * 160
  | some .mm => l.value * 160 / 25.4

/-! ### Groups and paths -/

/-- How the content of a group is moved: stretched and turned about the pivot, then shifted. -/
structure Transform (α : Type) where
  /-- The turn, in degrees. -/
  rotation : α
  pivot : Point α
  scale : Point α
  shift : Point α
  deriving BEq, Repr

namespace Transform

variable {α : Type} [Scalar α]

/-- The transform that moves nothing. -/
def identity : Transform α where
  rotation := Scalar.lit 0
  pivot := ⟨Scalar.lit 0, Scalar.lit 0⟩
  scale := ⟨Scalar.lit 1, Scalar.lit 1⟩
  shift := ⟨Scalar.lit 0, Scalar.lit 0⟩

/-- Whether every parameter has the value that moves nothing. -/
def isIdentity (t : Transform α) : Bool :=
  t == identity

/-- The map from the coordinates inside the group to those around it. -/
def matrix (t : Transform α) : Affine α :=
  Affine.shift (t.pivot + t.shift) * Affine.turn (Scalar.radians t.rotation)
    * Affine.stretch t.scale * Affine.shift (-t.pivot)

/-- The parameters, with the turn first and each point by its coordinates. -/
def numbers (t : Transform α) : List α :=
  [t.rotation, t.pivot.x, t.pivot.y, t.scale.x, t.scale.y, t.shift.x, t.shift.y]

end Transform

/-- A color at a place between the start `0` and the end `1` of a gradient. -/
structure ColorStop (α : Type) where
  offset : α
  /-- Eight hex digits, alpha first. -/
  color : String
  deriving BEq, Repr

/-- How the interior of a path is painted. -/
inductive Fill (α : Type) where
  | solid (color : String)
  | linear (stops : List (ColorStop α)) (start finish : Point α)
  | radial (stops : List (ColorStop α)) (center : Point α) (radius : α)
  deriving BEq, Repr

/-- The stops of a gradient; a solid fill has none. -/
def Fill.stops {α : Type} : Fill α → List (ColorStop α)
  | solid _ => []
  | linear stops _ _ | radial stops _ _ => stops

/-- Whether colors blend across the fill. -/
def Fill.isGradient {α : Type} : Fill α → Bool
  | solid _ => false
  | linear .. | radial .. => true

/-- How the ends of a stroke look. -/
inductive LineCap where
  | butt
  | round
  | square
  deriving DecidableEq, Repr

namespace LineCap

/-- The name of a cap. -/
def name : LineCap → String
  | butt => "butt"
  | round => "round"
  | square => "square"

/-- The cap with a given name. -/
def ofName? : String → Option LineCap
  | "butt" => some butt
  | "round" => some round
  | "square" => some square
  | _ => none

end LineCap

/-- How the corners of a stroke look. -/
inductive LineJoin where
  | miter
  | round
  | bevel
  deriving DecidableEq, Repr

namespace LineJoin

/-- The name of a join. -/
def name : LineJoin → String
  | miter => "miter"
  | round => "round"
  | bevel => "bevel"

/-- The join with a given name. -/
def ofName? : String → Option LineJoin
  | "miter" => some miter
  | "round" => some round
  | "bevel" => some bevel
  | _ => none

end LineJoin

/-- Which regions count as inside a path that crosses itself. -/
inductive FillRule where
  | nonZero
  | evenOdd
  deriving DecidableEq, Repr

namespace FillRule

/-- The name of a rule. -/
def name : FillRule → String
  | nonZero => "nonZero"
  | evenOdd => "evenOdd"

/-- The rule with a given name. -/
def ofName? : String → Option FillRule
  | "nonZero" => some nonZero
  | "evenOdd" => some evenOdd
  | _ => none

end FillRule

/-- A path with its style. -/
structure Path (α : Type) where
  name : Option String
  commands : List (Command α)
  /-- A path without a fill has a transparent interior. -/
  fill : Option (Fill α)
  fillAlpha : α
  /-- Eight hex digits, alpha first. -/
  strokeColor : Option String
  strokeAlpha : α
  strokeWidth : Option (Length α)
  cap : LineCap
  join : LineJoin
  miter : α
  fillRule : FillRule
  deriving BEq, Repr

/-- The miter limit of a path that states none. -/
def Path.defaultMiter {α : Type} [Scalar α] : α := Scalar.lit 4

/-- An unnamed and unpainted path. -/
def Path.ofCommands {α : Type} [Scalar α] (commands : List (Command α)) : Path α where
  name := none
  commands := commands
  fill := none
  fillAlpha := Scalar.lit 1
  strokeColor := none
  strokeAlpha := Scalar.lit 1
  strokeWidth := none
  cap := .butt
  join := .miter
  miter := Path.defaultMiter
  fillRule := .nonZero

/-- A group or a path. -/
inductive Node (α : Type) where
  | group (name : Option String) (transform : Transform α) (children : List (Node α))
  | path (p : Path α)
  deriving Repr

/-- A vector graphic. -/
structure Graphic (α : Type) where
  width : Length α
  height : Length α
  /-- The size of the coordinate space in which paths are drawn. -/
  viewport : Point α
  /-- The content, bottom first. -/
  nodes : List (Node α)
  deriving Repr

variable {α : Type}

/-! ### The paths of a tree -/

mutual

/-- The paths of a node at any depth, in the order in which they are drawn. -/
def Node.paths : Node α → List (Path α)
  | .group _ _ children => Node.pathsOf children
  | .path p => [p]

/-- The paths of a list of nodes. -/
def Node.pathsOf : List (Node α) → List (Path α)
  | [] => []
  | n :: ns => n.paths ++ Node.pathsOf ns

end

/-- The paths of a graphic at any depth, in the order in which they are drawn. -/
def Graphic.paths (g : Graphic α) : List (Path α) :=
  Node.pathsOf g.nodes

/-- The number of paths of a graphic. -/
def Graphic.pathCount (g : Graphic α) : Nat :=
  g.paths.length

/-! ### Equality of trees -/

mutual

/-- Whether two nodes are built alike, their numbers compared as numbers. -/
def Node.same [BEq α] : Node α → Node α → Bool
  | .group m s xs, .group n t ys => m == n && s == t && Node.sameList xs ys
  | .path p, .path q => p == q
  | _, _ => false

/-- Whether two lists of nodes are built alike. -/
def Node.sameList [BEq α] : List (Node α) → List (Node α) → Bool
  | [], [] => true
  | x :: xs, y :: ys => x.same y && Node.sameList xs ys
  | _, _ => false

end

instance [BEq α] : BEq (Node α) := ⟨Node.same⟩

/-- Whether two graphics are built alike, their numbers compared as numbers. -/
def Graphic.same [BEq α] (g h : Graphic α) : Bool :=
  g.width == h.width && g.height == h.height && g.viewport == h.viewport
    && Node.sameList g.nodes h.nodes

instance [BEq α] : BEq (Graphic α) := ⟨Graphic.same⟩

end Iconsmith
