import Iconsmith.Graphic.Command
import Iconsmith.Outline.Segment

/-!
# Arcs as cubic curves

A drawing command gives an elliptical arc by its two ends. From these the center of the ellipse is
computed, and the angle over which the arc runs; the arc is then cut into pieces of at most a right
angle, each close to a cubic curve.

All computations are done in the frame of the ellipse: turned back by its rotation, with the middle
between the ends as the origin.
-/

namespace Iconsmith

/-- The turn of an ellipse, by the cosine and the sine of its angle. -/
structure Turn (α : Type) where
  cos : α
  sin : α

namespace Turn

variable {α : Type} [Scalar α]

/-- The turn by an angle in degrees. -/
def ofDegrees (degrees : α) : Turn α where
  cos := Scalar.cos (Scalar.radians degrees)
  sin := Scalar.sin (Scalar.radians degrees)

/-- Turns a vector. -/
def apply (t : Turn α) (v : Point α) : Point α :=
  ⟨t.cos * v.x - t.sin * v.y, t.sin * v.x + t.cos * v.y⟩

/-- Turns a vector back. -/
def undo (t : Turn α) (v : Point α) : Point α :=
  ⟨t.cos * v.x + t.sin * v.y, -t.sin * v.x + t.cos * v.y⟩

end Turn

/-- An arc by its center: it runs from the angle `start` over the signed angle `delta`. -/
structure CenterArc (α : Type) where
  center : Point α
  radii : Point α
  turn : Turn α
  start : α
  delta : α

namespace CenterArc

variable {α : Type} [Scalar α]

/-- The sum of the squares of the coordinates, in units of the radii. -/
def extent (radii p : Point α) : α :=
  (p.x * p.x) / (radii.x * radii.x) + (p.y * p.y) / (radii.y * radii.y)

/-- Radii that are too short to span the ends are lengthened until they just do. -/
def enlarge (radii p : Point α) : Point α :=
  if Scalar.lt (Scalar.lit 1) (extent radii p) then
    ⟨radii.x * Scalar.sqrt (extent radii p), radii.y * Scalar.sqrt (extent radii p)⟩
  else radii

/-- The denominator of the formula for the center. -/
def spread (radii p : Point α) : α :=
  radii.x * radii.x * p.y * p.y + radii.y * radii.y * p.x * p.x

/-- How far the center lies from the middle between the ends, and on which side of it. -/
def centerOffset (radii p : Point α) (largeArc sweep : Bool) : α :=
  let rx2 := radii.x * radii.x
  let ry2 := radii.y * radii.y
  let num := rx2 * ry2 - rx2 * p.y * p.y - ry2 * p.x * p.x
  let den := spread radii p
  if den == Scalar.lit 0 then Scalar.lit 0
  else
    let side := if largeArc = sweep then -Scalar.lit 1 else Scalar.lit 1
    side * Scalar.sqrt (Scalar.positivePart (num / den))

/-- The center in the frame of the ellipse, where one end is `p` and the other one `-p`. -/
def localCenter (radii p : Point α) (largeArc sweep : Bool) : Point α :=
  let k := centerOffset radii p largeArc sweep
  ⟨k * radii.x * p.y / radii.y, -k * radii.y * p.x / radii.x⟩

/-- The direction from the center to the end `p`, on the unit circle. -/
def fromCenter (radii p center : Point α) : Point α :=
  ⟨(p.x - center.x) / radii.x, (p.y - center.y) / radii.y⟩

/-- The direction from the center to the end `-p`, on the unit circle. -/
def toCenter (radii p center : Point α) : Point α :=
  ⟨(-p.x - center.x) / radii.x, (-p.y - center.y) / radii.y⟩

/-- The signed angle from one direction to another. -/
def angle (u v : Point α) : α :=
  Scalar.atan2 (u.cross v) (u.dot v)

/-- Of the two angles between two directions, the one in the direction of the sweep. -/
def sweepAngle (sweep : Bool) (delta : α) : α :=
  if !sweep && Scalar.lt (Scalar.lit 0) delta then delta - Scalar.lit 2 * Scalar.pi
  else if sweep && Scalar.lt delta (Scalar.lit 0) then delta + Scalar.lit 2 * Scalar.pi
  else delta

/-- The arc between two points, whose radii are positive. -/
def between (start finish radii : Point α) (arc : Arc α) : CenterArc α :=
  let turn := Turn.ofDegrees arc.rotation
  let p := turn.undo ((start - finish).shrink (Scalar.lit 2))
  let radii := enlarge radii p
  let c := localCenter radii p arc.largeArc arc.sweep
  let u := fromCenter radii p c
  let v := toCenter radii p c
  { center := turn.apply c + (start + finish).shrink (Scalar.lit 2)
    radii
    turn
    start := angle ⟨Scalar.lit 1, Scalar.lit 0⟩ u
    delta := sweepAngle arc.sweep (angle u v) }

/-- The point of the ellipse that a point in the frame of its unit circle stands for. -/
def place (a : CenterArc α) (unit : Point α) : Point α :=
  a.turn.apply ⟨unit.x * a.radii.x, unit.y * a.radii.y⟩ + a.center

/-- The number of pieces into which an arc is cut. -/
def pieceCount (a : CenterArc α) : Nat :=
  max 1 (Scalar.ceilNat (Scalar.abs a.delta / (Scalar.pi / Scalar.lit 2)))

/-- The curve that runs from the angle `θ` over the angle `step`, up to the point `finish`. -/
def piece (a : CenterArc α) (k step θ : α) (finish : Point α) : Segment α :=
  let s₁ := Scalar.sin θ
  let c₁ := Scalar.cos θ
  let s₂ := Scalar.sin (θ + step)
  let c₂ := Scalar.cos (θ + step)
  .cubic (a.place ⟨c₁ - k * s₁, s₁ + k * c₁⟩) (a.place ⟨c₂ + k * s₂, s₂ - k * c₂⟩) finish

/-- A number of pieces from the angle `θ` on. The last one ends at `finish`, and each of the others
where it ends on the ellipse. -/
def pieces (a : CenterArc α) (k step : α) (finish : Point α) : Nat → α → List (Segment α)
  | 0, _ => []
  | 1, θ => [a.piece k step θ finish]
  | n + 2, θ =>
    let mark := a.place ⟨Scalar.cos (θ + step), Scalar.sin (θ + step)⟩
    a.piece k step θ mark :: pieces a k step finish (n + 1) (θ + step)

/-- The curves of an arc that ends at `finish`. -/
def curves (a : CenterArc α) (finish : Point α) : List (Segment α) :=
  let step := a.delta / Scalar.lit a.pieceCount
  let k := Scalar.lit 4 / Scalar.lit 3 * Scalar.tan (step / Scalar.lit 4)
  a.pieces k step finish a.pieceCount a.start

end CenterArc

namespace Arc

variable {α : Type} [Scalar α]

/-- The segments of an arc between two points. An ellipse without extent makes it a line. -/
def segments (arc : Arc α) (start finish : Point α) : List (Segment α) :=
  let radii : Point α := ⟨Scalar.abs arc.radii.x, Scalar.abs arc.radii.y⟩
  if radii.x == Scalar.lit 0 || radii.y == Scalar.lit 0 || start == finish then [.line finish]
  else (CenterArc.between start finish radii arc).curves finish

end Arc

end Iconsmith
