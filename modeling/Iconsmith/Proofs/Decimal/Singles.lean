import Iconsmith.Plane.Precision
import Iconsmith.Proofs.Decimal.Roots

/-!
# Singles as doubles

A finite single is a double with few digits. Its magnitude is below `2 ^ 129`, and a positive one is at
least `1 / 2 ^ 149`.
-/

namespace Iconsmith.Single

open Double (Canonical Inside Within ofCanonical zero)
open Float.Model.UnpackedFloat (Sign)

/-- A double that a finite single is equal to. -/
def IsSingle (x : Float) : Prop :=
  ∃ y : Float32, y.isFinite = true ∧ toDouble y = x

lemma ofBits_eq {x : Float} {n : Nat} (h : x.toBits.toNat = n) :
    Float.ofBits (UInt64.ofNat n) = x := by
  rw [← h, UInt64.ofNat_toNat, Float.ofBits_toBits]

lemma isNaN_of_isFinite {y : Float32} (h : y.isFinite = true) : y.isNaN = false := by
  change y.toModel.unpack.isFinite = true at h
  change y.toModel.unpack.isNaN = false
  cases hy : y.toModel.unpack with
  | notANumber =>
    rw [hy] at h
    contradiction
  | infinity s => rfl
  | zero s => rfl
  | finite s m e hm => rfl

/-- The sign of a single. -/
def signOf (y : Float32) : Sign :=
  if y.toBits.toNat < 2 ^ 31 then .positive else .negative

lemma toNat_signOf (y : Float32) : (signOf y).toBitVec.toNat = y.toBits.toNat / 2 ^ 31 := by
  have hlt : y.toBits.toNat < 2 ^ 32 := y.toBits.toBitVec.isLt
  unfold signOf
  split
  · change 0 = _
    omega
  · change 1 = _
    omega

lemma magnitude_bounds (y : Float32) :
    (magnitude y).mantissa < 2 ^ 24 ∧ -149 ≤ (magnitude y).exponent ∧ (magnitude y).exponent ≤ 105 := by
  unfold magnitude
  simp only
  split
  · refine ⟨?_, ?_, ?_⟩ <;> simp only <;> omega
  · refine ⟨?_, ?_, ?_⟩ <;> simp only <;> omega

lemma toDouble_of_isFinite {y : Float32} (hy : y.isFinite = true) :
    toDouble y = Float.ofBits
      (UInt64.ofNat ((signOf y).toBitVec.toNat * 2 ^ 63 + doubleBits (magnitude y))) := by
  rw [toDouble, if_neg (by rw [isNaN_of_isFinite hy]; decide), if_pos hy, toNat_signOf]

/-- A finite single is a signed zero, or a double with a magnitude between the least and the largest
single. -/
lemma toDouble_cases {y : Float32} (hy : y.isFinite = true) :
    (∃ s, toDouble y = zero s) ∨ ∃ s m e, ∃ h : Canonical m e, toDouble y = ofCanonical s h
      ∧ (1 / 2 ^ 149 : ℚ) ≤ m * 2 ^ e ∧ (m * 2 ^ e : ℚ) ≤ 2 ^ 129 := by
  obtain ⟨hshort, hlow, hhigh⟩ := magnitude_bounds y
  rw [toDouble_of_isFinite hy]
  generalize magnitude y = x at hshort hlow hhigh
  obtain ⟨n, e⟩ := x
  simp only at hshort hlow hhigh
  rcases Nat.eq_zero_or_pos n with rfl | hpos
  · left
    rw [doubleBits, if_pos rfl, Nat.add_zero]
    exact ⟨signOf y, ofBits_eq (Double.toNat_zero (signOf y))⟩
  right
  have hdigits : n.log2 < 24 := (Nat.log2_lt hpos.ne').mpr hshort
  obtain ⟨j, hj⟩ : ∃ j, n.log2 + j = 52 := ⟨52 - n.log2, by omega⟩
  have hfull : 2 ^ 52 ≤ n * 2 ^ j := by
    calc 2 ^ 52 = 2 ^ n.log2 * 2 ^ j := by rw [← pow_add, hj]
      _ ≤ n * 2 ^ j := Nat.mul_le_mul_right _ (Nat.log2_self_le hpos.ne')
  have hlt : n * 2 ^ j < 2 ^ 53 := by
    calc n * 2 ^ j < 2 ^ (n.log2 + 1) * 2 ^ j :=
          Nat.mul_lt_mul_of_pos_right Nat.lt_log2_self (Nat.two_pow_pos j)
      _ = 2 ^ 53 := by rw [← pow_add]; congr 1; omega
  have hcanonical : Canonical (n * 2 ^ j) (e - j) :=
    ⟨by omega, hlt, by omega, by omega, Or.inl hfull⟩
  have hvalue : ((n * 2 ^ j : Nat) : ℚ) * 2 ^ (e - j) = n * 2 ^ e := by
    rw [zpow_sub₀ two_ne_zero, zpow_natCast]
    push_cast
    field_simp
  refine ⟨signOf y, _, _, hcanonical, ofBits_eq ?_, ?_, ?_⟩
  · rw [Double.toNat_ofCanonical, if_pos hfull, doubleBits, if_neg hpos.ne']
    have hbits : 52 - n.log2 = j := by omega
    simp only [hbits]
    omega
  · rw [hvalue]
    have hone : (1 : ℚ) ≤ n := by exact_mod_cast hpos
    calc (1 / 2 ^ 149 : ℚ) = 1 * 2 ^ (-149 : Int) := by rw [one_mul, zpow_neg, one_div]; rfl
      _ ≤ n * 2 ^ e := by
        gcongr
        exact one_le_two
  · rw [hvalue]
    calc (n * 2 ^ e : ℚ) ≤ 2 ^ 24 * 2 ^ (105 : Int) := by
          gcongr
          · exact_mod_cast hshort.le
          · exact one_le_two
      _ = 2 ^ 129 := by norm_num

variable {x : Float}

lemma IsSingle.within (h : IsSingle x) : Within 1 129 x := by
  obtain ⟨y, hy, rfl⟩ := h
  rw [Double.within_iff]
  rcases toDouble_cases hy with ⟨s, heq⟩ | ⟨s, m, e, hm, heq, -, hhigh⟩
  · rw [heq, Double.unpack_zero]
    change (0 : ℚ) ≤ (1 : Nat) * 2 ^ 129
    positivity
  · rw [heq, Double.unpack_ofCanonical, Nat.cast_one, one_mul]
    exact ⟨hm, hhigh⟩

lemma IsSingle.inside (h : IsSingle x) (hpos : 0 < x) : Inside 149 129 x := by
  obtain ⟨y, hy, rfl⟩ := h
  have hunpack := Double.unpack_of_pos hpos
  rcases toDouble_cases hy with ⟨s, heq⟩ | ⟨s, m, e, hm, heq, hlow, hhigh⟩
  · rw [heq, Double.unpack_zero] at hunpack
    simp at hunpack
  · rw [heq, Double.unpack_ofCanonical] at hunpack
    cases s with
    | negative => simp at hunpack
    | positive =>
      rw [heq]
      exact Double.inside_ofCanonical hm hlow hhigh

end Iconsmith.Single
