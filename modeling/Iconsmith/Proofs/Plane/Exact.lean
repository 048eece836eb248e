import Mathlib
import Iconsmith.Outline.Arc

/-!
# Exact scalars

What is drawn is rounded at every step, but the formulas are those of plane geometry. Read over scalars
whose sums and products obey the laws of a commutative ring, a product of affine maps maps one after the
other. The real numbers are such scalars. Their sine and cosine need not be those of an angle: any two
functions will do that stay on the unit circle.
-/

namespace Iconsmith

/-- Scalars that add and multiply without rounding. All other operations are arbitrary. -/
class ExactScalar (α : Type) extends CommRing α, Scalar α

/-! ### Coordinates -/

section Coordinates

variable {α : Type} [Scalar α]

namespace Point

@[simp] lemma add_x (p q : Point α) : (p + q).x = p.x + q.x := rfl

@[simp] lemma add_y (p q : Point α) : (p + q).y = p.y + q.y := rfl

@[simp] lemma sub_x (p q : Point α) : (p - q).x = p.x - q.x := rfl

@[simp] lemma sub_y (p q : Point α) : (p - q).y = p.y - q.y := rfl

@[simp] lemma neg_x (p : Point α) : (-p).x = -p.x := rfl

@[simp] lemma neg_y (p : Point α) : (-p).y = -p.y := rfl

end Point

namespace Affine

lemma mul_xAxis (m n : Affine α) : (m * n).xAxis = m.applyVector n.xAxis := rfl

lemma mul_yAxis (m n : Affine α) : (m * n).yAxis = m.applyVector n.yAxis := rfl

lemma mul_origin (m n : Affine α) : (m * n).origin = m.apply n.origin := rfl

end Affine

end Coordinates

variable {α : Type} [ExactScalar α]

namespace Scalar

lemma lit_zero : (lit 0 : α) = 0 := Nat.cast_zero

lemma lit_one : (lit 1 : α) = 1 := Nat.cast_one

lemma lit_two : (lit 2 : α) = 2 := Nat.cast_ofNat

end Scalar

/-! ### Affine maps -/

namespace Affine

lemma apply_identity (p : Point α) : identity.apply p = p := by
  ext <;> simp [identity, apply, applyVector, Point.origin]

lemma apply_shift (v p : Point α) : (shift v).apply p = p + v := by
  ext <;> simp [shift, apply, applyVector]

lemma apply_stretch (v p : Point α) : (stretch v).apply p = ⟨v.x * p.x, v.y * p.y⟩ := by
  ext <;> simp [stretch, apply, applyVector, Point.origin]

/-- A product first applies its second factor. -/
lemma apply_mul (m n : Affine α) (p : Point α) : (m * n).apply p = m.apply (n.apply p) := by
  ext
  all_goals
    simp only [apply, applyVector, mul_xAxis, mul_yAxis, mul_origin, Point.add_x, Point.add_y]
    ring

lemma apply_turn (degrees : α) (p : Point α) :
    (turn (Scalar.radians degrees)).apply p = (Turn.ofDegrees degrees).apply p := by
  ext
  · simp [turn, apply, applyVector, Point.origin, Turn.ofDegrees, Turn.apply, sub_eq_add_neg]
  · simp [turn, apply, applyVector, Point.origin, Turn.ofDegrees, Turn.apply]

end Affine

/-! ### Turns -/

namespace Turn

variable {t : Turn α}

lemma apply_undo (h : t.cos ^ 2 + t.sin ^ 2 = 1) (v : Point α) : t.apply (t.undo v) = v := by
  ext
  · simp only [apply, undo]
    linear_combination v.x * h
  · simp only [apply, undo]
    linear_combination v.y * h

lemma undo_apply (h : t.cos ^ 2 + t.sin ^ 2 = 1) (v : Point α) : t.undo (t.apply v) = v := by
  ext
  · simp only [apply, undo]
    linear_combination v.x * h
  · simp only [apply, undo]
    linear_combination v.y * h

lemma apply_neg (v : Point α) : t.apply (-v) = -t.apply v := by
  ext
  all_goals
    simp only [apply, Point.neg_x, Point.neg_y]
    ring

end Turn

/-! ### Real numbers -/

/-- How the sine and the cosine of an angle are read: as any two numbers on the unit circle. -/
class Circular where
  sin : ℝ → ℝ
  cos : ℝ → ℝ
  cos_sq_add_sin_sq (x : ℝ) : cos x ^ 2 + sin x ^ 2 = 1

/-- The sine and the cosine of analysis. -/
noncomputable abbrev Circular.ofAngle : Circular where
  sin := Real.sin
  cos := Real.cos
  cos_sq_add_sin_sq := Real.cos_sq_add_sin_sq

open Classical in
/-- The real numbers, with the root that is not negative and the angles above `-π` and up to `π`. -/
noncomputable instance [Circular] : ExactScalar ℝ where
  div := (· / ·)
  beq x y := decide (x = y)
  lt x y := decide (x < y)
  abs x := |x|
  sqrt := Real.sqrt
  sin := Circular.sin
  cos := Circular.cos
  tan x := Circular.sin x / Circular.cos x
  atan2 y x := Complex.arg ⟨x, y⟩
  pi := Real.pi
  ceilNat := Nat.ceil

variable [Circular]

namespace Scalar

lemma lt_iff {x y : ℝ} : lt x y = true ↔ x < y :=
  decide_eq_true_iff

lemma beq_iff {x y : ℝ} : (x == y) = true ↔ x = y :=
  decide_eq_true_iff

lemma positivePart_of_nonneg {x : ℝ} (h : 0 ≤ x) : positivePart x = x := by
  unfold positivePart
  split_ifs with hpos
  · rfl
  · rw [lt_iff, not_lt] at hpos
    exact le_antisymm (by simpa using h) hpos

end Scalar

lemma Point.beq_iff {p q : Point ℝ} : (p == q) = true ↔ p = q := by
  rw [Point.ext_iff, ← Scalar.beq_iff, ← Scalar.beq_iff, ← Bool.and_eq_true]
  rfl

lemma Turn.cos_sq_add_sin_sq_ofDegrees (degrees : ℝ) :
    (ofDegrees degrees).cos ^ 2 + (ofDegrees degrees).sin ^ 2 = 1 :=
  Circular.cos_sq_add_sin_sq _

end Iconsmith
