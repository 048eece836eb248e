import Iconsmith.Proofs.Decimal.Singles
import Iconsmith.Proofs.Outline.Bounds
import Iconsmith.Svg.Flatten

/-!
# The growth of lengths

The maps of a scene have coefficients of single precision, so that neither one of them nor two in a row
lead out of the range of doubles. A map makes lengths grow by a positive factor, unless its determinant is
zero as it is computed.
-/

namespace Iconsmith

open Double (Inside)
open Single (IsSingle)

/-! ### Points and maps of single precision -/

/-- A point with coordinates of single precision. -/
def Point.IsSingle (p : Point Float) : Prop :=
  Single.IsSingle p.x ∧ Single.IsSingle p.y

/-- A map with coefficients of single precision. -/
structure Affine.IsSingle (m : Affine Float) : Prop where
  xAxis : m.xAxis.IsSingle
  yAxis : m.yAxis.IsSingle
  origin : m.origin.IsSingle

lemma Point.IsSingle.within {p : Point Float} (h : p.IsSingle) : p.Within 1 129 :=
  ⟨h.1.within, h.2.within⟩

lemma Point.Within.widen {n a k b : Nat} {p : Point Float} (h : p.Within n a) (hn : n ≤ 2 ^ k)
    (hb : a + k ≤ b) : p.Within 1 b :=
  ⟨h.1.widen hn hb, h.2.widen hn hb⟩

namespace Affine

variable {m n : Affine Float}

lemma IsSingle.within (h : m.IsSingle) : m.Within 129 129 where
  xAxis := h.xAxis.within
  yAxis := h.yAxis.within
  origin := h.origin.within.widen (Nat.one_le_two_pow (n := 0)) (by norm_num)

/-- Two maps in a row. -/
lemma IsSingle.within_mul (hm : m.IsSingle) (hn : n.IsSingle) : (m * n).Within 129 260 where
  xAxis := (hm.within.applyVector hn.xAxis.within (by norm_num) (by norm_num)).widen
    (k := 1) (by norm_num) (by norm_num)
  yAxis := (hm.within.applyVector hn.yAxis.within (by norm_num) (by norm_num)).widen
    (k := 1) (by norm_num) (by norm_num)
  origin := (hm.within.apply hn.origin.within (by norm_num) (by norm_num)).widen
    (k := 2) (by norm_num) (by norm_num)

lemma Within.determinant {a b : Nat} (hm : m.Within a b) (hb : b + b ≤ 971) :
    Double.Within 2 (b + b) m.determinant := by
  have hfirst := hm.xAxis.1.mul hm.yAxis.2 (by norm_num) hb
  have hsecond := hm.xAxis.2.mul hm.yAxis.1 (by norm_num) hb
  have hboth := hfirst.sub hsecond (by norm_num) hb
  exact hboth

end Affine

namespace Svg

/-! ### Growth -/

section Growth

variable {a b : Nat} {m : Affine Float} (hm : m.Within a b) (hb : b ≤ 260)

include hm hb

/-- Whether lengths grow is told by the determinant as it is computed. -/
lemma growth_cases :
    (m.determinant == 0) = true ∧ growth m = 0 ∨
      (m.determinant == 0) = false ∧ Inside 538 262 (growth m) := by
  have hroot : Float.sqrt 0 = 0 := by decide +kernel
  have harea : Double.Within 1 521 m.determinant :=
    (hm.determinant (by omega)).widen (k := 1) (by norm_num) (by omega)
  rcases harea.abs_cases with ⟨hzero, habs⟩ | ⟨hzero, habs⟩
  · left
    rw [growth, habs]
    exact ⟨hzero, hroot⟩
  · right
    exact ⟨hzero, habs.sqrt (by norm_num) (by norm_num) (by norm_num) (by norm_num)⟩

lemma within_growth : Double.Within 1 262 (growth m) := by
  rcases growth_cases hm hb with ⟨-, hgrowth⟩ | ⟨-, hgrowth⟩
  · rw [hgrowth]
    exact Double.within_zero 1 262
  · exact hgrowth.within

/-- A length stays finite. -/
lemma isFinite_mul_growth {x : Float} (hx : IsSingle x) : (x * growth m).isFinite = true :=
  (hx.within.mul (within_growth hm hb) (by norm_num) (by norm_num)).isFinite

/-- A positive length stays positive, unless the map leaves no area. -/
lemma mul_growth_cases {x : Float} (hx : IsSingle x) (hpos : 0 < x) :
    (m.determinant == 0) = true ∧ x * growth m = 0 ∨
      (m.determinant == 0) = false ∧ 0 < x * growth m := by
  have hinside := hx.inside hpos
  rcases growth_cases hm hb with ⟨hzero, hgrowth⟩ | ⟨hzero, hgrowth⟩
  · rw [hgrowth]
    exact Or.inl ⟨hzero, hinside.mul_zero⟩
  · exact Or.inr ⟨hzero, (hinside.mul hgrowth (by norm_num) (by norm_num)).pos⟩

end Growth

end Svg

end Iconsmith
