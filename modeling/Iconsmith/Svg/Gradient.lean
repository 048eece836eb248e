import Iconsmith.Svg.Server
import Iconsmith.Svg.Tint

/-!
# Gradients

The stops of a gradient are put into ascending order. A gradient without stops paints nothing, one
with a single stop is a color, and all others need coordinates: those of the shape or those of the
rectangle that bounds it.
-/

namespace Iconsmith.Svg.Gradient

/-! ### Stops -/

/-- A stop as it is worked with. -/
structure Mark where
  offset : Float32
  tint : Tint

/-- Whether at most four numbers lie between two numbers that are not negative. -/
def isNear (x y : Float32) : Bool :=
  let m := x.toBits.toNat
  let n := y.toBits.toNat
  x == y || (m - n) + (n - m) ≤ 4

/-- The offset that an element gives. Without one of its own it is that of the stop before it. -/
def offset (n : Xml.Node) (before : Float) : Float :=
  match (attribute? n "offset").bind Measure.ofText? with
  | some ⟨x, .user⟩ => x
  | some ⟨x, .percent⟩ => x / 100
  | _ => before

/-- The tint that a stop gives. -/
def tint (c : Chain) : Tint :=
  let t :=
    match own? "stop-color" c with
    | some "currentColor" => inherited c "color" Tint.ofText? Tint.black
    | text => (text.bind Tint.ofText?).getD Tint.black
  let opacity := ((own? "stop-opacity" c).bind opacityOf?).getD 1
  { t with opacity := clamped (t.opacity * opacity) }

/-- The stops that some elements give, where `around` is what holds them and `before` is the offset
before them. -/
def marks (around : Chain) (before : Float) : List Xml.Node → List Mark
  | [] => []
  | n :: ns =>
    let here := offset n before
    ⟨clamped (Single.ofDouble here), tint (n :: around)⟩ :: marks around here ns

/-- Keeps the outer two of stops at the same place. -/
def dropMiddles : List Mark → List Mark
  | a :: b :: c :: rest =>
    if isNear a.offset b.offset && isNear b.offset c.offset then dropMiddles (a :: c :: rest)
    else a :: dropMiddles (b :: c :: rest)
  | marks => marks
termination_by marks => marks.length

/-- Moves the second of two stops at the start up a little. -/
def splitStart : List Mark → List Mark
  | a :: b :: rest =>
    let b :=
      if isNear a.offset 0 && isNear b.offset 0 then
        { b with offset := clamped (a.offset + Placement.epsilon) }
      else b
    a :: splitStart (b :: rest)
  | marks => marks
termination_by marks => marks.length

/-- Puts stops after a given one into ascending order. A stop that is not after the one before it
takes its place, and the one before moves down a little. -/
def ascending (a : Mark) : List Mark → List Mark
  | [] => [a]
  | b :: rest =>
    if b.offset < a.offset || isNear a.offset b.offset then
      { a with offset := clamped (a.offset - Placement.epsilon) }
        :: ascending { b with offset := a.offset } rest
    else a :: ascending b rest

/-- The stops of a gradient, in ascending order. -/
def marksOf (n : Xml.Node) (around : Chain) : List Mark :=
  let stops := (elements n).filter (·.localName = "stop")
  match splitStart (dropMiddles (marks (n :: around) 0 stops)) with
  | [] => []
  | a :: rest => ascending a rest

/-- The stop of a scene for a stop. -/
def Mark.stop (m : Mark) : GradientStop :=
  ⟨Single.toDouble m.offset, m.tint.color, Single.toDouble m.tint.opacity⟩

/-! ### Coordinates -/

/-- The units of a gradient. -/
def unitsOf (n : Xml.Node) : Units :=
  Units.ofAttribute n "gradientUnits" .box

/-- The map from the coordinates of a gradient to those of the shape, by that of its units. -/
def placementIn (outer : Affine Float32) (n : Xml.Node) : Affine Float :=
  (Placement.compose outer (placement n "gradientTransform")).map Single.toDouble

/-- The color of a stop, with its opacity. -/
def Mark.server (m : Mark) : Server :=
  .plain m.tint.color m.tint.opacity

/-- A gradient from one point to another. -/
def linear? (view : Point Float32) (n : Xml.Node) (around : Chain) : Option Server :=
  match marksOf n around with
  | [] => none
  | [m] => some m.server
  | marks =>
    let units := unitsOf n
    let start := units.point view n "x1" "y1" (.user 0) (.user 0)
    let finish := units.point view n "x2" "y2" (.percent 100) (.user 0)
    some ⟨units, .shape, 1, fun outer =>
      .linear (marks.map Mark.stop) (placementIn outer n) (start.map Single.toDouble)
        (finish.map Single.toDouble)⟩

/-- A gradient around a point. Without a radius it has the color of its last stop. -/
def radial? (view : Point Float32) (n : Xml.Node) (around : Chain) : Option Server :=
  match marksOf n around with
  | [] => none
  | [m] => some m.server
  | m :: marks =>
    let units := unitsOf n
    let radius := units.along view n "r" (.percent 50)
    let center := units.point view n "cx" "cy" (.percent 50) (.percent 50)
    if isExtent radius then
      some ⟨units, .shape, 1, fun outer =>
        .radial ((m :: marks).map Mark.stop) (placementIn outer n) (center.map Single.toDouble)
          (Single.toDouble radius)⟩
    else some (marks.getLast?.getD m).server

end Iconsmith.Svg.Gradient
