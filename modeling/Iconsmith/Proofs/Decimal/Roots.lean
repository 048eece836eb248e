import Iconsmith.Proofs.Decimal.Bounds

/-!
# Products and roots of positive doubles

A positive number between two doubles is rounded to a double between them. So a product of positive
doubles is positive, as long as the product of their lower bounds is a double, and a square root of a
positive double always is: it has about half as many digits behind the point.
-/

namespace Iconsmith

namespace Double

open Float.Model (Format UnpackedFloat totalExponent)
open Float.Model.UnpackedFloat (Sign Accuracy ExtendedMantissa roundWithAccuracy accuracyOfFraction
  sqrtCore)

/-! ### Rounding between bounds -/

/-- Rounding does not leave a lower bound that is a double. -/
lemma le_rounded {v c : ℚ} (hv : 0 < v) (hc : Fits c) (h : c ≤ v) :
    c ≤ ((residue (v / 2 ^ level v)).roundedMantissa : ℚ) * 2 ^ level v := by
  have hpow : (0 : ℚ) < 2 ^ level v := by positivity
  obtain ⟨-, -, hlow⟩ := div_level hv
  obtain ⟨u, k, hu, hk, -, rfl⟩ := hc
  by_cases hle : level v ≤ k
  · obtain ⟨n, hvalue⟩ := exists_mul_zpow u hle
    rw [hvalue] at h ⊢
    gcongr
    exact_mod_cast le_roundedMantissa ((le_div_iff₀ hpow).mpr h)
  · -- the bound has more digits behind the point, so it has fewer before
    have hfull : 2 ^ 52 ≤ (residue (v / 2 ^ level v)).roundedMantissa :=
      le_roundedMantissa (hlow.resolve_left (by omega))
    have hshort : (u : ℚ) * 2 ^ k ≤ 2 ^ (53 + k) := by
      rw [zpow_add₀ two_ne_zero]
      gcongr
      exact_mod_cast hu.le
    calc (u : ℚ) * 2 ^ k ≤ 2 ^ (53 + k) := hshort
      _ ≤ 2 ^ (52 + level v) := zpow_le_zpow_right₀ one_le_two (by omega)
      _ = 2 ^ 52 * 2 ^ level v := by rw [zpow_add₀ two_ne_zero]; norm_cast
      _ ≤ _ := by
        gcongr
        exact_mod_cast hfull

/-- A positive double in parts, between two bounds. -/
def Between (c d : ℚ) : UnpackedFloat → Prop
  | .finite .positive m e _ => Canonical m e ∧ c ≤ m * 2 ^ e ∧ m * 2 ^ e ≤ d
  | _ => False

/-- A number between two doubles is rounded to a double between them. -/
lemma between_settle {v c d : ℚ} (hpos : 0 < c) (hc : Fits c) (hcv : c ≤ v) (hd : Fits d)
    (hvd : v ≤ d) :
    Between c d (settle .positive (residue (v / 2 ^ level v)).roundedMantissa (level v)) := by
  have hv : 0 < v := hpos.trans_le hcv
  obtain ⟨hlevel, hhigh, hlow⟩ := div_level hv
  have hnonneg : 0 ≤ v / 2 ^ level v := by positivity
  have hlower := le_rounded hv hc hcv
  have hupper := rounded_le hv hd hvd
  have hmantissa : 0 < (residue (v / 2 ^ level v)).roundedMantissa := by
    by_contra hzero
    rw [Nat.eq_zero_of_not_pos hzero, Nat.cast_zero, zero_mul] at hlower
    exact absurd hpos hlower.not_gt
  obtain ⟨m, i, hcanonical, hsettle, hvalue, -⟩ := exists_settle_eq .positive hmantissa hlevel
    (roundedMantissa_le hnonneg hhigh) (hlow.imp_right le_roundedMantissa) (hupper.trans_lt hd.lt)
  rw [hsettle]
  exact ⟨hcanonical, hvalue.symm ▸ hlower, hvalue.symm ▸ hupper⟩

/-! ### Products -/

lemma Between.mul {c d c' d' : ℚ} {x y : UnpackedFloat} (hx : Between c d x) (hy : Between c' d' y)
    (hc : 0 < c) (hc' : 0 < c') (hlow : Fits (c * c')) (hhigh : Fits (d * d')) :
    Between (c * c') (d * d') (UnpackedFloat.mul Format.binary64 x y) := by
  match x, y, hx, hy with
  | .finite .positive m e hm, .finite .positive n i hn, ⟨hxc, hxlow, hxhigh⟩, ⟨hyc, hylow, hyhigh⟩ =>
    have hpos : 0 < m * n := Nat.mul_pos hm hn
    have hvalue : ((m * n : Nat) : ℚ) * 2 ^ (e + i) = m * 2 ^ e * (n * 2 ^ i) := by
      rw [zpow_add₀ two_ne_zero]
      push_cast
      ring
    have hround : UnpackedFloat.mul Format.binary64 (.finite .positive m e hm)
        (.finite .positive n i hn) =
        roundWithAccuracy Format.binary64 .positive (m * n) (e + i) .exact := rfl
    rw [hround, roundWithAccuracy_eq_settle .positive (value_pos hpos _)
      (ofMantissaAndAccuracy_exact _ _) (hxc.le_level_mul hyc)]
    refine between_settle (mul_pos hc hc') hlow ?_ hhigh ?_
    · rw [hvalue]
      gcongr
    · rw [hvalue]
      gcongr
      exact hc.le.trans (hxlow.trans hxhigh)

/-! ### Square roots -/

/-- A root is given by its whole part and by what its remainder tells of the rest: nothing is left, or
less than a half, or more. The number for which that stands is less than twice too large, and no more than
twice too small. -/
lemma exists_root {n : Nat} (hn : 0 < n) :
    ∃ w : ℚ, n.sqrt ≤ w ∧ w * w ≤ 4 * n ∧ n ≤ 4 * (w * w)
      ∧ ExtendedMantissa.ofMantissaAndAccuracy n.sqrt
        (if n - n.sqrt * n.sqrt = 0 then .exact
          else .inexact (if n - n.sqrt * n.sqrt ≤ n.sqrt then .lt else .gt)) = residue w := by
  obtain ⟨k, hk, hresidue⟩ : ∃ k < 4, ExtendedMantissa.ofMantissaAndAccuracy n.sqrt
      (if n - n.sqrt * n.sqrt = 0 then .exact
        else .inexact (if n - n.sqrt * n.sqrt ≤ n.sqrt then .lt else .gt)) =
      residue (n.sqrt + (k : Nat) / (4 : Nat)) := by
    split_ifs
    · exact ⟨0, by decide, @ofMantissaAndAccuracy_fraction n.sqrt 0 4 (by decide)⟩
    · exact ⟨1, by decide, @ofMantissaAndAccuracy_fraction n.sqrt 1 4 (by decide)⟩
    · exact ⟨3, by decide, @ofMantissaAndAccuracy_fraction n.sqrt 3 4 (by decide)⟩
  have hroot : 0 < n.sqrt := Nat.sqrt_pos.mpr hn
  have hlow : (n.sqrt * n.sqrt : ℚ) ≤ n := by exact_mod_cast Nat.sqrt_le n
  have hhigh : (n : ℚ) ≤ 4 * (n.sqrt * n.sqrt) := by
    have hdouble : n.sqrt + 1 ≤ 2 * n.sqrt := by omega
    have hnext : n < (n.sqrt + 1) * (n.sqrt + 1) := Nat.lt_succ_sqrt n
    have := Nat.mul_le_mul hdouble hdouble
    exact_mod_cast (by linarith : n ≤ 4 * (n.sqrt * n.sqrt))
  have hrest : (0 : ℚ) ≤ k / (4 : Nat) ∧ (k / (4 : Nat) : ℚ) ≤ n.sqrt := by
    have hone : (1 : ℚ) ≤ n.sqrt := by exact_mod_cast hroot
    have hfraction : (k / (4 : Nat) : ℚ) ≤ 1 := by
      rw [div_le_one (by norm_num)]
      exact_mod_cast hk.le
    exact ⟨by positivity, hfraction.trans hone⟩
  exact ⟨_, le_add_of_nonneg_right hrest.1, by nlinarith, by nlinarith, hresidue⟩

/-- The whole part of a root has half as many digits as the number. -/
lemma zpow_le_sqrt {n : Nat} {k t : Int} (ht : t ≤ k / 2)
    (h : (2 : ℚ) ^ k ≤ n * (2 ^ t * 2 ^ t)) : (2 : ℚ) ^ (k / 2) ≤ n.sqrt * 2 ^ t := by
  have hpow : (0 : ℚ) < 2 ^ t := by positivity
  obtain ⟨j, hj⟩ : ∃ j : Nat, k / 2 = j + t := ⟨(k / 2 - t).toNat, by omega⟩
  have hsquare : (2 ^ j * 2 ^ j : ℚ) ≤ n := by
    refine le_of_mul_le_mul_right ?_ (mul_pos hpow hpow)
    calc (2 ^ j * 2 ^ j * (2 ^ t * 2 ^ t) : ℚ) = 2 ^ ((j + t) + (j + t) : Int) := by
          rw [zpow_add₀ two_ne_zero, zpow_add₀ two_ne_zero, zpow_natCast]
          ring
      _ ≤ 2 ^ k := zpow_le_zpow_right₀ one_le_two (by omega)
      _ ≤ n * (2 ^ t * 2 ^ t) := h
  have hnat : 2 ^ j ≤ n.sqrt := Nat.le_sqrt.mpr (by exact_mod_cast hsquare)
  have hwhole : (2 ^ j : ℚ) ≤ n.sqrt := by exact_mod_cast hnat
  rw [hj, zpow_add₀ two_ne_zero, zpow_natCast]
  gcongr

/-- A square root is given with what its remainder tells, and with digits enough. -/
lemma sqrtCore_spec {m : Nat} (hm : 0 < m) (e : Int) :
    ∃ v : ℚ, 0 < v ∧ v * v ≤ 4 * (m * 2 ^ e) ∧ m * 2 ^ e ≤ 4 * (v * v)
      ∧ ExtendedMantissa.ofMantissaAndAccuracy (sqrtCore Format.binary64 m e).1
          (sqrtCore Format.binary64 m e).2.2 =
        residue (v / 2 ^ (sqrtCore Format.binary64 m e).2.1)
      ∧ (sqrtCore Format.binary64 m e).2.1 ≤ level v := by
  have hhalf : e.ediv 2 = e / 2 := rfl
  have hmiddle : (totalExponent m e + 1).ediv 2 = (m.log2 + e) / 2 + 1 := by
    change (totalExponent m e + 1) / 2 = _
    rw [totalExponent]
    omega
  unfold sqrtCore
  simp only [hhalf, hmiddle]
  generalize htarget :
    min (e / 2) (Format.binary64.targetExponent ((m.log2 + e) / 2 + 1)) = t
  have hvalue : ((m <<< (e - 2 * t).toNat : Nat) : ℚ) * (2 ^ t * 2 ^ t) = m * 2 ^ e := by
    have hsteps : ((e - 2 * t).toNat : Int) + (t + t) = e := by omega
    rw [Nat.shiftLeft_eq, Nat.cast_mul, Nat.cast_pow, Nat.cast_ofNat, ← zpow_natCast,
      ← zpow_add₀ two_ne_zero, mul_assoc, ← zpow_add₀ two_ne_zero, hsteps]
  have hpos : 0 < m <<< (e - 2 * t).toNat := by
    rw [Nat.shiftLeft_eq]
    positivity
  generalize m <<< (e - 2 * t).toNat = n at hvalue hpos ⊢
  obtain ⟨w, hroot, hhigh, hlow, hresidue⟩ := exists_root hpos
  have hpow : (0 : ℚ) < 2 ^ t := by positivity
  have hdigits : (2 : ℚ) ^ ((m.log2 + e) / 2) ≤ w * 2 ^ t := by
    have hnumber : (2 : ℚ) ^ (m.log2 + e) ≤ n * (2 ^ t * 2 ^ t) := by
      rw [hvalue, zpow_add₀ two_ne_zero, zpow_natCast]
      gcongr
      exact_mod_cast Nat.log2_self_le hm.ne'
    exact (zpow_le_sqrt (by omega) hnumber).trans (by gcongr)
  have hw : 0 < w := pos_of_mul_pos_left (lt_of_lt_of_le (by positivity) hdigits) hpow.le
  have hsquare : w * 2 ^ t * (w * 2 ^ t) = w * w * (2 ^ t * 2 ^ t) := by ring
  refine ⟨w * 2 ^ t, by positivity, ?_, ?_, ?_, ?_⟩
  · rw [hsquare, ← hvalue, ← mul_assoc 4]
    gcongr
  · rw [hsquare, ← hvalue, ← mul_assoc 4]
    gcongr
  · rw [hresidue, mul_div_assoc, div_self hpow.ne', mul_one]
  · have hlog := (Int.zpow_le_iff_le_log one_lt_two (by positivity)).mp hdigits
    rw [level, targetExponent_eq]
    rw [targetExponent_eq] at htarget
    omega

/-- The square root of a positive double is positive. Its bounds are told by their squares, up to a
factor of four. -/
lemma Between.sqrt {c d c' d' : ℚ} {x : UnpackedFloat} (hx : Between c d x) (hc' : 0 < c')
    (hd' : 0 ≤ d') (hlow : 4 * (c' * c') ≤ c) (hhigh : 4 * d ≤ d' * d') (hc : Fits c')
    (hd : Fits d') : Between c' d' (UnpackedFloat.sqrt Format.binary64 x) := by
  match x, hx with
  | .finite .positive m e hm, ⟨_, hxlow, hxhigh⟩ =>
    obtain ⟨v, hv, hvhigh, hvlow, hresidue, hlevel⟩ := sqrtCore_spec hm e
    have hround : UnpackedFloat.sqrt Format.binary64 (.finite .positive m e hm) =
        roundWithAccuracy Format.binary64 .positive (sqrtCore Format.binary64 m e).1
          (sqrtCore Format.binary64 m e).2.1 (sqrtCore Format.binary64 m e).2.2 := rfl
    rw [hround, roundWithAccuracy_eq_settle .positive hv hresidue hlevel]
    refine between_settle hc' hc ?_ hd ?_
    · rw [mul_self_le_mul_self_iff hc'.le hv.le]
      linarith
    · rw [mul_self_le_mul_self_iff hv.le hd']
      linarith

/-! ### Bounds by powers of two -/

/-- A positive double of at least `1 / 2 ^ c` and at most `2 ^ a`. -/
def Inside (c a : Nat) (x : Float) : Prop :=
  Between (1 / 2 ^ c) (2 ^ a) x.toModel.unpack

section Inside

variable {a b c d : Nat} {x y : Float}

lemma fits_two_pow (ha : a ≤ 971) : Fits (2 ^ a) := by
  have := @fits_mul_two_pow 1 a (by norm_num) ha
  rwa [Nat.cast_one, one_mul] at this

lemma fits_one_div (hc : c ≤ 1074) : Fits (1 / 2 ^ c) :=
  ⟨1, -c, by norm_num, by omega, by omega, by simp⟩

lemma inside_ofCanonical {m : Nat} {e : Int} (h : Canonical m e) (hlow : 1 / 2 ^ c ≤ (m : ℚ) * 2 ^ e)
    (hhigh : (m : ℚ) * 2 ^ e ≤ 2 ^ a) : Inside c a (ofCanonical .positive h) := by
  rw [Inside, unpack_ofCanonical]
  exact ⟨h, hlow, hhigh⟩

lemma inside_ofModel {u : UnpackedFloat} (h : Between (1 / 2 ^ c) (2 ^ a) u) :
    Inside c a (.ofModel (.pack u)) := by
  match u, h with
  | .finite .positive m e hm, ⟨hcanonical, hlow, hhigh⟩ =>
    exact inside_ofCanonical hcanonical hlow hhigh

lemma Inside.exists_eq (h : Inside c a x) :
    ∃ m e, ∃ hc : Canonical m e, x = ofCanonical .positive hc := by
  have hfinite : x.isFinite = true := by
    change x.toModel.unpack.isFinite = true
    rw [Inside] at h
    match x.toModel.unpack, h with
    | .finite .positive m e hm, _ => rfl
  rcases isFinite_cases hfinite with ⟨s, rfl⟩ | ⟨s, m, e, hc, rfl⟩
  · rw [Inside, unpack_zero] at h
    exact h.elim
  · rw [Inside, unpack_ofCanonical] at h
    cases s with
    | negative => exact h.elim
    | positive => exact ⟨m, e, hc, rfl⟩

lemma Inside.pos (h : Inside c a x) : 0 < x := by
  obtain ⟨m, e, hc, rfl⟩ := h.exists_eq
  rw [← zero_positive]
  have hlt : (zero .positive).toModel.unpack.lt (ofCanonical .positive hc).toModel.unpack = true := by
    rw [unpack_zero, unpack_ofCanonical]
    rfl
  exact decide_eq_true hlt

lemma Inside.within (h : Inside c a x) : Within 1 a x := by
  obtain ⟨m, e, hc, rfl⟩ := h.exists_eq
  rw [Inside, unpack_ofCanonical] at h
  rw [within_iff, unpack_ofCanonical, Nat.cast_one, one_mul]
  exact ⟨hc, h.2.2⟩

/-- Nothing times a positive number is nothing. -/
lemma Inside.mul_zero (h : Inside c a x) : x * 0 = 0 := by
  obtain ⟨m, e, hc, rfl⟩ := h.exists_eq
  rw [← zero_positive]
  change Float.ofModel (.pack (UnpackedFloat.mul Format.binary64 (ofCanonical .positive hc).toModel.unpack
    (zero .positive).toModel.unpack)) = zero .positive
  rw [unpack_zero, unpack_ofCanonical]
  rfl

lemma Inside.mul (hx : Inside c a x) (hy : Inside d b y) (hlow : c + d ≤ 1074) (hhigh : a + b ≤ 971) :
    Inside (c + d) (a + b) (x * y) := by
  have hproduct : (1 / 2 ^ (c + d) : ℚ) = 1 / 2 ^ c * (1 / 2 ^ d) := by
    rw [pow_add, one_div_mul_one_div]
  refine inside_ofModel ?_
  have hc := fits_one_div hlow
  have hd := fits_two_pow hhigh
  rw [hproduct] at hc ⊢
  rw [pow_add] at hd ⊢
  exact Between.mul hx hy (by positivity) (by positivity) hc hd

lemma Inside.sqrt (h : Inside c a x) (hlow : c + 2 ≤ 2 * d) (hd : d ≤ 1074) (hhigh : a + 2 ≤ 2 * b)
    (hb : b ≤ 971) : Inside d b x.sqrt := by
  refine inside_ofModel (Between.sqrt h (by positivity) (by positivity) ?_ ?_ (fits_one_div hd)
    (fits_two_pow hb))
  · rw [one_div_mul_one_div, ← pow_add, ← two_mul, mul_one_div, div_le_div_iff₀ (by positivity)
      (by positivity), one_mul]
    calc (4 * 2 ^ c : ℚ) = 2 ^ (c + 2) := by ring
      _ ≤ 2 ^ (2 * d) := pow_le_pow_right₀ one_le_two hlow
  · calc (4 * 2 ^ a : ℚ) = 2 ^ (a + 2) := by ring
      _ ≤ 2 ^ (2 * b) := pow_le_pow_right₀ one_le_two hhigh
      _ = 2 ^ b * 2 ^ b := by ring

/-- The magnitude of a bounded double is nothing, or positive and no less than the least double. -/
lemma Within.abs_cases (h : Within 1 a x) :
    (x == 0) = true ∧ x.abs = 0 ∨ (x == 0) = false ∧ Inside 1074 a x.abs := by
  rcases isFinite_cases h.isFinite with ⟨s, rfl⟩ | ⟨s, m, e, hc, rfl⟩
  · left
    rw [← zero_positive]
    refine ⟨beq_zero s .positive, ?_⟩
    change Float.ofModel (.pack (zero s).toModel.unpack.abs) = zero .positive
    rw [unpack_zero]
    rfl
  · right
    have hbounded := within_iff.mp h
    rw [unpack_ofCanonical, Nat.cast_one, one_mul] at hbounded
    rw [← zero_positive, abs_ofCanonical]
    refine ⟨ofCanonical_beq_zero s .positive hc, inside_ofCanonical hc ?_ hbounded.2⟩
    have hone : (1 : ℚ) ≤ m := by exact_mod_cast hc.pos
    calc (1 / 2 ^ 1074 : ℚ) = 1 * 2 ^ (-1074 : Int) := by rw [one_mul, zpow_neg, one_div]; rfl
      _ ≤ m * 2 ^ e := by
        gcongr
        · exact one_le_two
        · exact hc.le

end Inside

end Double

end Iconsmith
