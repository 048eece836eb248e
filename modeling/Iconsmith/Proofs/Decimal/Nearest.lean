import Iconsmith.Decimal.Basic
import Iconsmith.Proofs.Decimal.Rounding
import Mathlib.Tactic

/-!
# Decimals and the doubles nearest to them

A decimal denotes a rational number, and `Decimal.toFloat` is the double nearest to that number. So
the many decimals of one value are all sent to the same double.
-/

namespace Iconsmith

open Float.Model (Format UnpackedFloat totalExponent)
open Float.Model.UnpackedFloat (Sign roundWithAccuracy decreaseExponent divCore)

namespace Double

section Arithmetic

variable {m n : Nat} {e i : Int}

lemma mul_ofCanonical (h : Canonical m e) (h' : Canonical n i) (hm : 2 ^ 52 ≤ m) :
    ofCanonical .positive h * ofCanonical .positive h' = nearest (m * 2 ^ e * (n * 2 ^ i)) := by
  have hlong : 2 ^ 52 ≤ m * n := hm.trans (Nat.le_mul_of_pos_right m h'.pos)
  have hround := round_product (e + i) hlong
  have hvalue : ((m * n : Nat) : ℚ) * 2 ^ (e + i) = m * 2 ^ e * (n * 2 ^ i) := by
    rw [zpow_add₀ two_ne_zero]
    push_cast
    ring
  rw [hvalue] at hround
  rw [← hround]
  change Float.ofModel (.pack (UnpackedFloat.mul Format.binary64
    (ofCanonical .positive h).toModel.unpack (ofCanonical .positive h').toModel.unpack)) = _
  rw [unpack_ofCanonical, unpack_ofCanonical]
  rfl

lemma div_ofCanonical (h : Canonical m e) (h' : Canonical n i) :
    ofCanonical .positive h / ofCanonical .positive h' = nearest (m * 2 ^ e / (n * 2 ^ i)) := by
  rw [← round_quotient h.pos h'.pos e i]
  change Float.ofModel (.pack (UnpackedFloat.div Format.binary64
    (ofCanonical .positive h).toModel.unpack (ofCanonical .positive h').toModel.unpack)) = _
  rw [unpack_ofCanonical, unpack_ofCanonical]
  rfl

lemma zero_mul_ofCanonical (h : Canonical m e) :
    zero .positive * ofCanonical .positive h = zero .positive := by
  change Float.ofModel (.pack (UnpackedFloat.mul Format.binary64
    (zero .positive).toModel.unpack (ofCanonical .positive h).toModel.unpack)) = _
  rw [unpack_ofCanonical, unpack_zero]
  rfl

lemma zero_div_ofCanonical (h : Canonical m e) :
    zero .positive / ofCanonical .positive h = zero .positive := by
  change Float.ofModel (.pack (UnpackedFloat.div Format.binary64
    (zero .positive).toModel.unpack (ofCanonical .positive h).toModel.unpack)) = _
  rw [unpack_ofCanonical, unpack_zero]
  rfl

end Arithmetic

/-! ### Whole numbers -/

lemma canonical_shiftLeft {n : Nat} (hpos : 0 < n) (hlt : n < 2 ^ 53) :
    Canonical (n <<< (52 - n.log2)) (n.log2 - 52) ∧ 2 ^ 52 ≤ n <<< (52 - n.log2) := by
  have hlog := (Nat.log2_lt hpos.ne').mpr hlt
  have hsplit : 2 ^ n.log2 * 2 ^ (52 - n.log2) = 2 ^ 52 := by
    rw [← pow_add]
    congr 1
    omega
  have hlow : 2 ^ 52 ≤ n <<< (52 - n.log2) := by
    rw [Nat.shiftLeft_eq, ← hsplit]
    exact Nat.mul_le_mul_right _ (Nat.log2_self_le hpos.ne')
  have hhigh : n <<< (52 - n.log2) < 2 ^ 53 := by
    have hn : n < 2 ^ (n.log2 + 1) := Nat.lt_log2_self
    have hwidth : 2 ^ (n.log2 + 1) * 2 ^ (52 - n.log2) = 2 ^ 53 := by
      rw [← pow_add]
      congr 1
      omega
    rw [Nat.shiftLeft_eq, ← hwidth]
    exact Nat.mul_lt_mul_of_pos_right hn (by positivity)
  exact ⟨⟨by omega, hhigh, by omega, by omega, .inl hlow⟩, hlow⟩

lemma value_shiftLeft {n : Nat} (hlt : n.log2 ≤ 52) :
    ((n <<< (52 - n.log2) : Nat) : ℚ) * 2 ^ ((n.log2 : Int) - 52) = n := by
  have hneg : (n.log2 : Int) - 52 = -((52 - n.log2 : Nat) : Int) := by omega
  rw [Nat.shiftLeft_eq, hneg, zpow_neg, zpow_natCast]
  push_cast
  field_simp

lemma toFloat_toUInt64 {n : Nat} (hpos : 0 < n) (hlt : n < 2 ^ 53) :
    n.toUInt64.toFloat = ofCanonical .positive (canonical_shiftLeft hpos hlt).1 := by
  obtain ⟨hcanonical, hlow⟩ := canonical_shiftLeft hpos hlt
  have hlog := (Nat.log2_lt hpos.ne').mpr hlt
  have hsmall : n.toUInt64.toNat = n := by
    change n % 2 ^ 64 = n
    omega
  have htarget : Format.binary64.targetExponent (totalExponent n 0) = n.log2 - 52 := by
    rw [targetExponent_eq, totalExponent]
    omega
  have hdecrease : decreaseExponent n 0 (n.log2 - 52) =
      (n <<< (52 - n.log2), (n.log2 : Int) - 52) := by
    have hsteps : (0 - ((n.log2 : Int) - 52)).toNat = 52 - n.log2 := by omega
    rw [decreaseExponent, hsteps]
    congr 1
    omega
  have hnormalize : UnpackedFloat.normalize Format.binary64 n 0 .positive =
      roundWithAccuracy Format.binary64 .positive (n <<< (52 - n.log2)) (n.log2 - 52) .exact := by
    have hcompare : compare (n : Int) 0 = .gt := by
      rw [Int.compare_eq_gt]
      exact_mod_cast hpos
    rw [UnpackedFloat.normalize, hcompare]
    simp only [Int.toNat_natCast]
    rw [UnpackedFloat.round, htarget, hdecrease]
  have hmodel : n.toUInt64.toFloat =
      .ofModel (.pack (UnpackedFloat.normalize Format.binary64 n.toUInt64.toNat 0 .positive)) := rfl
  rw [hmodel, hsmall, hnormalize, round_product _ hlow, nearest_eq_ofCanonical hcanonical]

/-! ### Powers of ten -/

lemma exists_canonical {x : Float} (hbiased : biased x ≠ 2047) (hsign : x.toBits.toNat < 2 ^ 63)
    (hpos : 0 < (Binary.ofFloat x).mantissa) :
    ∃ h : Canonical (Binary.ofFloat x).mantissa (Binary.ofFloat x).exponent,
      x = ofCanonical .positive h := by
  rcases isFinite_cases ((isFinite_iff x).mpr hbiased) with ⟨s, rfl⟩ | ⟨s, m, e, h, rfl⟩
  · cases s <;> exact absurd hpos (by decide)
  · obtain ⟨-, hs, hbinary⟩ := ofFloat_ofCanonical s h
    rw [signOf, if_pos hsign] at hs
    subst hs
    have hcanonical : Canonical (Binary.ofFloat (ofCanonical .positive h)).mantissa
        (Binary.ofFloat (ofCanonical .positive h)).exponent := by
      rw [hbinary]
      exact h
    refine ⟨hcanonical, ?_⟩
    congr 1 <;> rw [hbinary]

lemma zpow_eq_div (b : ℚ) (i : Int) : b ^ i = b ^ i.toNat / b ^ (-i).toNat := by
  obtain ⟨k, rfl | rfl⟩ := i.eq_nat_or_neg
  · simp
  · simp

lemma value_eq_natCast {m n : Nat} {i : Int} (h : m * 2 ^ i.toNat = n * 2 ^ (-i).toNat) :
    (m * 2 ^ i : ℚ) = n := by
  have hcast : (m * 2 ^ i.toNat : ℚ) = n * 2 ^ (-i).toNat := by exact_mod_cast h
  rw [zpow_eq_div, ← mul_div_assoc, hcast, mul_div_assoc, div_self (by positivity), mul_one]

lemma exactlyRepresentable_fields (e : Fin Float.exactlyRepresentablePowersOfTen.size) :
    let x := Float.exactlyRepresentablePowersOfTen[e.val]
    let b := Binary.ofFloat x
    biased x ≠ 2047 ∧ x.toBits.toNat < 2 ^ 63 ∧ 0 < b.mantissa ∧
      b.mantissa * 2 ^ b.exponent.toNat = 10 ^ e.val * 2 ^ (-b.exponent).toNat := by
  revert e
  decide

/-- The powers of ten that are kept in a table are exact. -/
lemma exactlyRepresentable_eq {e : Nat} (he : e < Float.exactlyRepresentablePowersOfTen.size) :
    ∃ m i, ∃ h : Canonical m i,
      Float.exactlyRepresentablePowersOfTen[e] = ofCanonical .positive h ∧
      (m * 2 ^ i : ℚ) = 10 ^ e := by
  obtain ⟨hbiased, hsign, hpos, hvalue⟩ := exactlyRepresentable_fields ⟨e, he⟩
  obtain ⟨h, hx⟩ := exists_canonical hbiased hsign hpos
  refine ⟨_, _, h, hx, ?_⟩
  have := value_eq_natCast hvalue
  rwa [Nat.cast_pow, Nat.cast_ofNat] at this

/-! ### Scientific notation -/

lemma nearest_zero : nearest 0 = zero .positive := by
  rw [nearest, if_pos rfl]
  rfl

lemma exists_canonical_nat {n : Nat} (hpos : 0 < n) (hlt : n < 2 ^ 53) :
    ∃ m i, ∃ h : Canonical m i, 2 ^ 52 ≤ m ∧ n.toUInt64.toFloat = ofCanonical .positive h ∧
      (m * 2 ^ i : ℚ) = n := by
  obtain ⟨hcanonical, hlow⟩ := canonical_shiftLeft hpos hlt
  have hlog := (Nat.log2_lt hpos.ne').mpr hlt
  exact ⟨_, _, hcanonical, hlow, toFloat_toUInt64 hpos hlt, value_shiftLeft (by omega)⟩

/-- Small mantissas and small exponents go through one multiplication or division. -/
lemma ofScientific_small {n e : Nat} (hn : n < 2 ^ 53) (he : e ≤ 22) (negative : Bool) :
    Float.ofScientific n negative e =
      nearest (if negative then n / 10 ^ e else n * 10 ^ e) := by
  obtain ⟨m, i, h, hpower, hvalue⟩ := exactlyRepresentable_eq (Nat.lt_succ_of_le he)
  have hfloat : Float.ofScientific n negative e =
      if negative then n.toUInt64.toFloat / ofCanonical .positive h
      else n.toUInt64.toFloat * ofCanonical .positive h := by
    rw [Float.ofScientific, dif_pos ⟨hn, he⟩, ← hpower]
    rfl
  rw [hfloat, ← hvalue]
  rcases Nat.eq_zero_or_pos n with rfl | hpos
  · have hzero : (0 : Nat).toUInt64.toFloat = zero .positive := by decide
    rw [hzero]
    cases negative with
    | true => simp [zero_div_ofCanonical, nearest_zero]
    | false => simp [zero_mul_ofCanonical, nearest_zero]
  · obtain ⟨m', i', h', hlow', hwhole, hvalue'⟩ := exists_canonical_nat hpos hn
    rw [hwhole, ← hvalue']
    cases negative with
    | true =>
      simp only [if_true]
      exact div_ofCanonical h' h
    | false =>
      simp only [Bool.false_eq_true, if_false]
      exact mul_ofCanonical h' h hlow'

/-- Beyond this exponent all numbers but zero are larger than doubles. -/
lemma le_scientific {n : Nat} (hn : n ≠ 0) {e : Int} (he : 2048 < e) :
    (2 : ℚ) ^ (1025 : Int) ≤ n * 10 ^ e := by
  have hone : (1 : ℚ) ≤ n := by exact_mod_cast Nat.pos_of_ne_zero hn
  calc (2 : ℚ) ^ (1025 : Int) ≤ 2 ^ e := zpow_le_zpow_right₀ one_le_two (by omega)
    _ ≤ 10 ^ e := by
      obtain ⟨k, rfl⟩ := Int.eq_ofNat_of_zero_le (by omega : 0 ≤ e)
      rw [zpow_natCast, zpow_natCast]
      gcongr
      norm_num
    _ ≤ n * 10 ^ e := le_mul_of_one_le_left (by positivity) hone

/-- Below this exponent numbers are smaller than half of the least double. -/
lemma scientific_lt {n : Nat} {e : Int} (he : e < -(2048 + (n.log2 : Int))) :
    (n : ℚ) * 10 ^ e < 2 ^ (-1076 : Int) := by
  have hn : (n : ℚ) < 2 ^ ((n.log2 : Int) + 1) := by
    have : n < 2 ^ (n.log2 + 1) := Nat.lt_log2_self
    exact_mod_cast this
  have hten : (10 : ℚ) ^ e ≤ 2 ^ e := by
    obtain ⟨k, hk⟩ := Int.eq_ofNat_of_zero_le (by omega : 0 ≤ -e)
    have : e = -(k : Int) := by omega
    rw [this, zpow_neg, zpow_neg, zpow_natCast, zpow_natCast]
    gcongr
    norm_num
  calc (n : ℚ) * 10 ^ e < 2 ^ ((n.log2 : Int) + 1) * 10 ^ e := by gcongr
    _ ≤ 2 ^ ((n.log2 : Int) + 1) * 2 ^ e := by gcongr
    _ = 2 ^ ((n.log2 : Int) + 1 + e) := (zpow_add₀ two_ne_zero _ _).symm
    _ ≤ 2 ^ (-1076 : Int) := zpow_le_zpow_right₀ one_le_two (by omega)

/-- An exponent that is not negative is that of a factor, before which there are digits to spare. -/
lemma mul_scientific (n : Nat) {e : Int} (he : 0 ≤ e) :
    ((n <<< 53 * 10 ^ e.toNat : Nat) : ℚ) * 2 ^ (-53 + 0 : Int) = n * 10 ^ e := by
  obtain ⟨k, rfl⟩ := Int.eq_ofNat_of_zero_le he
  rw [Nat.shiftLeft_eq, Int.toNat_natCast, zpow_natCast]
  push_cast
  norm_num
  ring

/-- A negative exponent is that of a divisor. -/
lemma div_scientific (n : Nat) {e : Int} (he : ¬ 0 ≤ e) :
    (n * 2 ^ (0 : Int) / ((10 ^ (-e).toNat : Nat) * 2 ^ (0 : Int)) : ℚ) = n * 10 ^ e := by
  obtain ⟨k, hk⟩ := Int.eq_ofNat_of_zero_le (by omega : 0 ≤ -e)
  have : e = -(k : Int) := by omega
  rw [this, neg_neg, Int.toNat_natCast, zpow_neg, zpow_natCast]
  push_cast
  simp only [mul_one]
  rfl

lemma model_ofScientific (n : Nat) (e : Int) :
    Float.ofModel (Float.Model.ofScientific n e) = nearest (n * 10 ^ e) := by
  unfold Float.Model.ofScientific UnpackedFloat.ofScientific
  by_cases hzero : n = 0
  · subst hzero
    rw [dif_pos rfl, Nat.cast_zero, zero_mul, nearest_zero]
    rfl
  rw [dif_neg hzero]
  split
  · next hlarge => rw [nearest_large (le_scientific hzero hlarge)]
  · split
    · next hsmall =>
      have hpos : (0 : ℚ) < n := by exact_mod_cast Nat.pos_of_ne_zero hzero
      rw [nearest_small (by positivity) (scientific_lt hsmall)]
      rfl
    · split
      · next hnonneg =>
        have hlong : 2 ^ 52 ≤ n <<< 53 * 10 ^ e.toNat := by
          rw [Nat.shiftLeft_eq]
          have h₁ : 1 ≤ n := Nat.pos_of_ne_zero hzero
          have h₂ : 1 ≤ 10 ^ e.toNat := Nat.one_le_pow _ _ (by norm_num)
          nlinarith
        have hround := round_product (-53 + 0) hlong
        rw [← mul_scientific n hnonneg, ← hround]
        rfl
      · next hneg =>
        have hround := round_quotient (Nat.pos_of_ne_zero hzero)
          (Nat.pow_pos (by norm_num) : 0 < 10 ^ (-e).toNat) 0 0
        rw [← div_scientific n hneg, ← hround]
        rfl

end Double

namespace Decimal

/-- The number that a decimal denotes. -/
def value (d : Decimal) : ℚ :=
  d.digits * 10 ^ d.exponent

/-- A decimal is sent to the double nearest to what it denotes. -/
theorem toFloat_eq_nearest (d : Decimal) : d.toFloat = Double.nearest d.value := by
  obtain ⟨n, e⟩ := d
  by_cases hsmall : n < 2 ^ 53 ∧ e.natAbs ≤ 22
  · rw [toFloat, Double.ofScientific_small hsmall.1 hsmall.2, value]
    by_cases hneg : e < 0
    · have he : e = -(e.natAbs : Int) := by omega
      rw [decide_eq_true hneg, if_pos rfl]
      simp only
      rw [he, zpow_neg, zpow_natCast, Int.natAbs_neg, Int.natAbs_natCast, div_eq_mul_inv]
    · have he : e = (e.natAbs : Int) := by omega
      rw [decide_eq_false hneg, if_neg (by decide)]
      simp only
      rw [he, zpow_natCast, Int.natAbs_natCast]
  · have hsigned : (if decide (e < 0) then Int.negOfNat e.natAbs else Int.ofNat e.natAbs) = e := by
      by_cases hneg : e < 0
      · rw [decide_eq_true hneg, if_pos rfl, Int.negOfNat_eq, Int.ofNat_eq_natCast]
        omega
      · rw [decide_eq_false hneg, if_neg (by decide), Int.ofNat_eq_natCast]
        omega
    have hslow : toFloat ⟨n, e⟩ = .ofModel (.ofScientific n e) := by
      rw [toFloat, Float.ofScientific, dif_neg hsmall]
      simp only [hsigned]
    rw [hslow, Double.model_ofScientific, value]

/-- Decimals of one value are sent to the same double. -/
theorem toFloat_congr {d d' : Decimal} (h : d.value = d'.value) : d.toFloat = d'.toFloat := by
  rw [toFloat_eq_nearest, toFloat_eq_nearest, h]

end Decimal

end Iconsmith
