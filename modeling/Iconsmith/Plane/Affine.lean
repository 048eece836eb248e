import Iconsmith.Plane.Scalar

/-!
# Points and affine maps

A `Point` is a point or a vector of the plane. An `Affine` map is kept by the images of the two
axes and of the origin; `A * B` first applies `B`.
-/

namespace Iconsmith

/-- A point or vector of the plane. -/
@[ext] structure Point (α : Type) where
  x : α
  y : α
  deriving BEq, Repr

namespace Point

/-- Maps both coordinates. -/
def map {α β : Type} (f : α → β) (p : Point α) : Point β := ⟨f p.x, f p.y⟩

variable {α : Type} [Scalar α]

instance : Add (Point α) := ⟨fun p q => ⟨p.x + q.x, p.y + q.y⟩⟩

instance : Sub (Point α) := ⟨fun p q => ⟨p.x - q.x, p.y - q.y⟩⟩

instance : Neg (Point α) := ⟨fun p => ⟨-p.x, -p.y⟩⟩

/-- The point with both coordinates zero. -/
def origin : Point α := ⟨Scalar.lit 0, Scalar.lit 0⟩

/-- Both coordinates times a number. -/
def scale (p : Point α) (k : α) : Point α := ⟨p.x * k, p.y * k⟩

/-- Both coordinates divided by a number. -/
def shrink (p : Point α) (k : α) : Point α := ⟨p.x / k, p.y / k⟩

/-- The sum of the products of coordinates. -/
def dot (p q : Point α) : α := p.x * q.x + p.y * q.y

/-- The signed area spanned by two vectors. -/
def cross (p q : Point α) : α := p.x * q.y - p.y * q.x

/-- The point as far beyond `p` as `q` is before it. -/
def reflect (p q : Point α) : Point α := p.scale (Scalar.lit 2) - q

end Point

/-- An affine map of the plane. -/
@[ext] structure Affine (α : Type) where
  /-- The image of the first unit vector. -/
  xAxis : Point α
  /-- The image of the second unit vector. -/
  yAxis : Point α
  /-- The image of the origin. -/
  origin : Point α
  deriving BEq, Repr

namespace Affine

/-- Maps all coefficients. -/
def map {α β : Type} (f : α → β) (m : Affine α) : Affine β :=
  ⟨m.xAxis.map f, m.yAxis.map f, m.origin.map f⟩

variable {α : Type} [Scalar α]

/-- The signed area of the image of the unit square. -/
def determinant (m : Affine α) : α := m.xAxis.cross m.yAxis

/-- The image of a vector, that is not moved along with the origin. -/
def applyVector (m : Affine α) (v : Point α) : Point α :=
  ⟨m.xAxis.x * v.x + m.yAxis.x * v.y, m.xAxis.y * v.x + m.yAxis.y * v.y⟩

/-- The image of a point. -/
def apply (m : Affine α) (p : Point α) : Point α :=
  m.applyVector p + m.origin

instance : Mul (Affine α) where
  mul a b :=
    { xAxis := a.applyVector b.xAxis
      yAxis := a.applyVector b.yAxis
      origin := a.applyVector b.origin + a.origin }

/-- The map that moves nothing. -/
def identity : Affine α where
  xAxis := ⟨Scalar.lit 1, Scalar.lit 0⟩
  yAxis := ⟨Scalar.lit 0, Scalar.lit 1⟩
  origin := Point.origin

/-- The map that adds a vector. -/
def shift (v : Point α) : Affine α where
  xAxis := ⟨Scalar.lit 1, Scalar.lit 0⟩
  yAxis := ⟨Scalar.lit 0, Scalar.lit 1⟩
  origin := v

/-- The map that stretches along the axes. -/
def stretch (v : Point α) : Affine α where
  xAxis := ⟨v.x, Scalar.lit 0⟩
  yAxis := ⟨Scalar.lit 0, v.y⟩
  origin := Point.origin

/-- The turn by an angle in radians. -/
def turn (angle : α) : Affine α where
  xAxis := ⟨Scalar.cos angle, Scalar.sin angle⟩
  yAxis := ⟨-Scalar.sin angle, Scalar.cos angle⟩
  origin := Point.origin

end Affine

end Iconsmith
