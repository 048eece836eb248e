import Iconsmith.Plane.Affine

/-!
# Outlines

An outline is a list of segments in absolute coordinates. Nothing in it depends on what was drawn
before, so it can be mapped point by point.
-/

namespace Iconsmith

/-- A piece of an outline, from wherever the one before it ends. -/
inductive Segment (α : Type) where
  | move (p : Point α)
  | line (p : Point α)
  | quadratic (c p : Point α)
  | cubic (c₁ c₂ p : Point α)
  | close
  deriving BEq, Repr

namespace Segment

variable {α : Type}

/-- Maps all points of a segment. -/
def map {β : Type} (f : Point α → Point β) : Segment α → Segment β
  | move p => move (f p)
  | line p => line (f p)
  | quadratic c p => quadratic (f c) (f p)
  | cubic c₁ c₂ p => cubic (f c₁) (f c₂) (f p)
  | close => close

/-- The points of a segment, control points before its end. -/
def points : Segment α → List (Point α)
  | move p | line p => [p]
  | quadratic c p => [c, p]
  | cubic c₁ c₂ p => [c₁, c₂, p]
  | close => []

/-- Where a segment ends. A close ends where the outline began. -/
def finish? : Segment α → Option (Point α)
  | move p | line p | quadratic _ p | cubic _ _ p => some p
  | close => none

theorem map_map {β γ : Type} (f : Point α → Point β) (g : Point β → Point γ) (s : Segment α) :
    (s.map f).map g = s.map (g ∘ f) := by
  cases s <;> rfl

theorem points_map {β : Type} (f : Point α → Point β) (s : Segment α) :
    (s.map f).points = s.points.map f := by
  cases s <;> rfl

end Segment

end Iconsmith
