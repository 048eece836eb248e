import Iconsmith.Graphic.Basic
import Iconsmith.Outline.Arc

/-!
# Replaying commands

A `Pen` is moved by one drawing command after the other and leaves an outline. It knows where it is,
where the outline began, and the last control point, which a smooth command reflects.
-/

namespace Iconsmith

/-- The state between two drawing commands. -/
structure Pen (α : Type) where
  current : Point α
  start : Point α
  /-- The second control point, if the last command drew a cubic curve. -/
  lastCubic : Option (Point α)
  /-- The control point, if the last command drew a quadratic curve. -/
  lastQuadratic : Option (Point α)

namespace Pen

variable {α : Type} [Scalar α]

/-- The pen before the first command. -/
def initial : Pen α where
  current := Point.origin
  start := Point.origin
  lastCubic := none
  lastQuadratic := none

/-- A point in absolute coordinates. -/
def resolve (pen : Pen α) (relative : Bool) (p : Point α) : Point α :=
  if relative then pen.current + p else p

/-- The control point of a smooth curve: the last one reflected, or else the current point. -/
def smoothControl (pen : Pen α) (last : Option (Point α)) : Point α :=
  match last with
  | some c => pen.current.reflect c
  | none => pen.current

/-- The pen after a segment that leaves no control point behind. -/
def goTo (pen : Pen α) (p : Point α) : Pen α :=
  { pen with current := p, lastCubic := none, lastQuadratic := none }

/-- Draws a line. -/
def line (pen : Pen α) (p : Point α) : List (Segment α) × Pen α :=
  ([.line p], pen.goTo p)

/-- Draws a cubic curve. -/
def cubic (pen : Pen α) (c₁ c₂ p : Point α) : List (Segment α) × Pen α :=
  ([.cubic c₁ c₂ p], { pen.goTo p with lastCubic := some c₂ })

/-- Draws a quadratic curve. -/
def quadratic (pen : Pen α) (c p : Point α) : List (Segment α) × Pen α :=
  ([.quadratic c p], { pen.goTo p with lastQuadratic := some c })

/-- The segments that a command draws, and the pen after it. -/
def draw (pen : Pen α) : Command α → List (Segment α) × Pen α
  | .moveTo r p =>
    let p := pen.resolve r p
    ([.move p], { pen.goTo p with start := p })
  | .lineTo r p => pen.line (pen.resolve r p)
  | .horizontalTo r x => pen.line ⟨if r then pen.current.x + x else x, pen.current.y⟩
  | .verticalTo r y => pen.line ⟨pen.current.x, if r then pen.current.y + y else y⟩
  | .cubicTo r c₁ c₂ p => pen.cubic (pen.resolve r c₁) (pen.resolve r c₂) (pen.resolve r p)
  | .smoothCubicTo r c₂ p =>
    pen.cubic (pen.smoothControl pen.lastCubic) (pen.resolve r c₂) (pen.resolve r p)
  | .quadraticTo r c p => pen.quadratic (pen.resolve r c) (pen.resolve r p)
  | .smoothQuadraticTo r p =>
    pen.quadratic (pen.smoothControl pen.lastQuadratic) (pen.resolve r p)
  | .arcTo r arc p =>
    let p := pen.resolve r p
    (arc.segments pen.current p, pen.goTo p)
  | .close => ([.close], pen.goTo pen.start)

/-- The segments that a list of commands draws, and the pen after them. -/
def drawAll (pen : Pen α) : List (Command α) → List (Segment α) × Pen α
  | [] => ([], pen)
  | c :: cs =>
    let (first, pen) := pen.draw c
    let (rest, pen) := pen.drawAll cs
    (first ++ rest, pen)

end Pen

/-! ### Outlines of graphics -/

namespace Outline

variable {α : Type} [Scalar α]

/-- The outline that a list of commands draws, from the origin. -/
def ofCommands (cs : List (Command α)) : List (Segment α) :=
  (Pen.initial.drawAll cs).1

mutual

/-- The outlines of the paths of a node, where `m` maps the coordinates around it. -/
def ofNode (m : Affine α) : Node α → List (Segment α)
  | .group _ transform children => ofNodes (m * transform.matrix) children
  | .path p => (ofCommands p.commands).map (Segment.map m.apply)

/-- The outlines of the paths of a list of nodes. -/
def ofNodes (m : Affine α) : List (Node α) → List (Segment α)
  | [] => []
  | n :: ns => ofNode m n ++ ofNodes m ns

end

end Outline

/-- The outline of a graphic, in the coordinates of its viewport. -/
def Graphic.outline {α : Type} [Scalar α] (g : Graphic α) : List (Segment α) :=
  Outline.ofNodes Affine.identity g.nodes

end Iconsmith
