import Iconsmith.Graphic.Basic
import Iconsmith.Outline.Segment
import Iconsmith.Svg.Rgb

/-!
# Scenes

A scene is an SVG document with all its references and inherited values resolved: a list of shapes
and images, each with the map from its own coordinates to those of the scene.
-/

namespace Iconsmith.Svg

/-- A color at a place between the start `0` and the end `1` of a gradient. -/
structure GradientStop where
  offset : Float
  color : Rgb
  opacity : Float
  deriving Repr

/-- What a region or a stroke is painted with. Gradients have coordinates of their own, which
`placement` takes to those of the shape. -/
inductive Paint where
  | color (c : Rgb)
  | linear (stops : List GradientStop) (placement : Affine Float) (start finish : Point Float)
  | radial (stops : List GradientStop) (placement : Affine Float) (center : Point Float)
    (radius : Float)
  /-- Copies of a drawing. -/
  | pattern
  deriving Repr

/-- How the interior of a shape is painted. -/
structure Interior where
  paint : Paint
  opacity : Float
  rule : FillRule
  deriving Repr

/-- How the line along a shape is painted. -/
structure Stroke where
  paint : Paint
  opacity : Float
  width : Float
  cap : LineCap
  join : LineJoin
  miter : Float
  deriving Repr

/-- An outline with its style. -/
structure Shape where
  /-- The identifier of the shape, empty if it has none. -/
  id : String
  isVisible : Bool
  /-- The outline in the coordinates of the shape. -/
  outline : List (Segment Float)
  /-- The map from the coordinates of the shape to those of the scene. -/
  placement : Affine Float
  interior : Option Interior
  stroke : Option Stroke
  deriving Repr

/-- Something that is drawn. -/
inductive Item where
  | shape (s : Shape)
  /-- A picture made of pixels. -/
  | image
  deriving Repr

/-- A resolved document. -/
structure Scene where
  size : Point Float
  /-- What is drawn, bottom first. -/
  items : List Item
  deriving Repr

end Iconsmith.Svg
