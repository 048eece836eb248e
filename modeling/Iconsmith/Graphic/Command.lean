import Iconsmith.Plane.Affine

/-!
# Drawing commands

A path is drawn by commands, each absolute or relative to the current point. A command is its
`Verb`, its mode and its operands: `Command.operands` takes them apart in the order in which they
are written, and `Verb.command?` puts them together again.
-/

namespace Iconsmith

/-- The form of an elliptical arc: radii, turn of the ellipse in degrees, and which of the four
arcs through two points is meant. -/
structure Arc (α : Type) where
  radii : Point α
  rotation : α
  largeArc : Bool
  sweep : Bool
  deriving BEq, Repr

/-- A drawing command. -/
inductive Command (α : Type) where
  | moveTo (relative : Bool) (p : Point α)
  | lineTo (relative : Bool) (p : Point α)
  | horizontalTo (relative : Bool) (x : α)
  | verticalTo (relative : Bool) (y : α)
  | cubicTo (relative : Bool) (c₁ c₂ p : Point α)
  | smoothCubicTo (relative : Bool) (c₂ p : Point α)
  | quadraticTo (relative : Bool) (c p : Point α)
  | smoothQuadraticTo (relative : Bool) (p : Point α)
  | arcTo (relative : Bool) (arc : Arc α) (p : Point α)
  | close
  deriving BEq, Repr

/-- What a command does, apart from where. -/
inductive Verb where
  | move
  | line
  | horizontal
  | vertical
  | cubic
  | smoothCubic
  | quadratic
  | smoothQuadratic
  | arc
  | close
  deriving DecidableEq, Repr

/-- An operand of a command. -/
inductive Operand (α : Type) where
  | number (x : α)
  | flag (on : Bool)
  deriving BEq, Repr

/-- Which of the two an operand is. -/
inductive Operand.Kind where
  | number
  | flag
  deriving DecidableEq, Repr

namespace Verb

variable {α : Type}

/-- The letter of a verb, in upper case. -/
def letter : Verb → Char
  | move => 'M'
  | line => 'L'
  | horizontal => 'H'
  | vertical => 'V'
  | cubic => 'C'
  | smoothCubic => 'S'
  | quadratic => 'Q'
  | smoothQuadratic => 'T'
  | arc => 'A'
  | close => 'Z'

/-- The verb with a given letter, in either case. -/
def ofLetter? (c : Char) : Option Verb :=
  match c.toUpper with
  | 'M' => some move
  | 'L' => some line
  | 'H' => some horizontal
  | 'V' => some vertical
  | 'C' => some cubic
  | 'S' => some smoothCubic
  | 'Q' => some quadratic
  | 'T' => some smoothQuadratic
  | 'A' => some arc
  | 'Z' => some close
  | _ => none

/-- The kinds of the operands, in the order in which they are written. -/
def operands : Verb → List Operand.Kind
  | move | line | smoothQuadratic => [.number, .number]
  | horizontal | vertical => [.number]
  | cubic => [.number, .number, .number, .number, .number, .number]
  | smoothCubic | quadratic => [.number, .number, .number, .number]
  | arc => [.number, .number, .number, .flag, .flag, .number, .number]
  | close => []

/-- The command made of a verb, a mode and operands of its kinds. -/
def command? (v : Verb) (relative : Bool) (operands : List (Operand α)) : Option (Command α) :=
  match v, operands with
  | move, [.number x, .number y] => some (.moveTo relative ⟨x, y⟩)
  | line, [.number x, .number y] => some (.lineTo relative ⟨x, y⟩)
  | horizontal, [.number x] => some (.horizontalTo relative x)
  | vertical, [.number y] => some (.verticalTo relative y)
  | cubic, [.number x₁, .number y₁, .number x₂, .number y₂, .number x, .number y] =>
    some (.cubicTo relative ⟨x₁, y₁⟩ ⟨x₂, y₂⟩ ⟨x, y⟩)
  | smoothCubic, [.number x₂, .number y₂, .number x, .number y] =>
    some (.smoothCubicTo relative ⟨x₂, y₂⟩ ⟨x, y⟩)
  | quadratic, [.number x₁, .number y₁, .number x, .number y] =>
    some (.quadraticTo relative ⟨x₁, y₁⟩ ⟨x, y⟩)
  | smoothQuadratic, [.number x, .number y] => some (.smoothQuadraticTo relative ⟨x, y⟩)
  | arc, [.number rx, .number ry, .number turn, .flag large, .flag sweep, .number x, .number y] =>
    some (.arcTo relative ⟨⟨rx, ry⟩, turn, large, sweep⟩ ⟨x, y⟩)
  | close, [] => some .close
  | _, _ => none

/-- The verb of the groups of operands that follow the first one. -/
def repeated : Verb → Verb
  | move => line
  | v => v

end Verb

namespace Command

variable {α : Type}

/-- What a command does. -/
def verb : Command α → Verb
  | moveTo .. => .move
  | lineTo .. => .line
  | horizontalTo .. => .horizontal
  | verticalTo .. => .vertical
  | cubicTo .. => .cubic
  | smoothCubicTo .. => .smoothCubic
  | quadraticTo .. => .quadratic
  | smoothQuadraticTo .. => .smoothQuadratic
  | arcTo .. => .arc
  | close => .close

/-- Whether the operands count from the current point. -/
def isRelative : Command α → Bool
  | moveTo r _ | lineTo r _ | horizontalTo r _ | verticalTo r _ | cubicTo r .. => r
  | smoothCubicTo r .. | quadraticTo r .. | smoothQuadraticTo r _ | arcTo r .. => r
  | close => false

/-- The letter of a command, in lower case when it is relative. -/
def letter (c : Command α) : Char :=
  if c.isRelative then c.verb.letter.toLower else c.verb.letter

/-- The operands, in the order in which they are written. -/
def operands : Command α → List (Operand α)
  | moveTo _ p | lineTo _ p | smoothQuadraticTo _ p => [.number p.x, .number p.y]
  | horizontalTo _ x => [.number x]
  | verticalTo _ y => [.number y]
  | cubicTo _ c₁ c₂ p =>
    [.number c₁.x, .number c₁.y, .number c₂.x, .number c₂.y, .number p.x, .number p.y]
  | smoothCubicTo _ c p | quadraticTo _ c p =>
    [.number c.x, .number c.y, .number p.x, .number p.y]
  | arcTo _ a p =>
    [.number a.radii.x, .number a.radii.y, .number a.rotation, .flag a.largeArc, .flag a.sweep,
     .number p.x, .number p.y]
  | close => []

/-- The operands that are numbers. -/
def numbers (c : Command α) : List α :=
  c.operands.filterMap fun
    | .number x => some x
    | .flag _ => none

/-- Taking a command apart loses nothing. -/
theorem command?_operands (c : Command α) :
    c.verb.command? c.isRelative c.operands = some c := by
  cases c <;> rfl

end Command

end Iconsmith
