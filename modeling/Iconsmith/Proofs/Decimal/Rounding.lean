import Iconsmith.Proofs.Decimal.Doubles

/-!
# Rounding to doubles

`Double.nearest` rounds a rational number to a double. All the ways in which arithmetic on doubles
comes to a result lead to it: however a number is given, as a mantissa and an exponent or with a
remainder beside them, what it is rounded to depends on its value alone.
-/

namespace Iconsmith

namespace Double

open Float.Model (Format UnpackedFloat totalExponent)
open Float.Model.UnpackedFloat (Sign Accuracy ExtendedMantissa roundWithAccuracy
  shiftToTargetExponent shiftToExponent accuracyOfFraction divCore)

/-- The whole part of a number, with what rounding needs to know of the rest: the next digit in
binary, and whether anything follows it. -/
def residue (v : ℚ) : ExtendedMantissa where
  mantissa := ⌊2 * v⌋₊ / 2
  roundBit := ⌊2 * v⌋₊ % 2 != 0
  stickyBit := decide (2 * v ≠ ⌊2 * v⌋₊)

lemma residue_natCast (n : Nat) : residue n = ⟨n, false, false⟩ := by
  have h : ⌊(2 * n : ℚ)⌋₊ = 2 * n := by
    have := Nat.floor_natCast (R := ℚ) (2 * n)
    rwa [Nat.cast_mul] at this
  simp [residue, h]

lemma mantissa_residue (v : ℚ) : (residue v).mantissa = ⌊v⌋₊ := by
  have h := Nat.floor_div_natCast (2 * v) 2
  rw [Nat.cast_ofNat, mul_div_cancel_left₀ v two_ne_zero] at h
  exact h.symm

lemma shiftRightOne_residue (v : ℚ) : (residue v).shiftRightOne = residue (v / 2) := by
  have hhalf : ⌊2 * (v / 2)⌋₊ = ⌊2 * v⌋₊ / 2 := by
    rw [mul_div_cancel₀ v two_ne_zero]
    exact (mantissa_residue v).symm
  have hparts := Nat.div_add_mod ⌊2 * v⌋₊ 2
  have hsticky : (⌊2 * v⌋₊ % 2 ≠ 0 ∨ 2 * v ≠ ⌊2 * v⌋₊) ↔ v ≠ (⌊2 * v⌋₊ / 2 : Nat) := by
    constructor
    · rintro h heq
      -- twice a natural number is its own whole part, and even
      have hfloor : ⌊2 * v⌋₊ = 2 * (⌊2 * v⌋₊ / 2) := by
        have := Nat.floor_natCast (R := ℚ) (2 * (⌊2 * v⌋₊ / 2))
        rwa [Nat.cast_mul, ← heq, Nat.cast_ofNat] at this
      rcases h with h | h
      · omega
      · apply h
        rw [hfloor, Nat.cast_mul, ← heq, Nat.cast_ofNat]
    · intro h
      by_contra hnot
      rw [not_or, not_ne_iff, not_ne_iff] at hnot
      apply h
      have hq : (⌊2 * v⌋₊ : ℚ) = 2 * (⌊2 * v⌋₊ / 2 : Nat) := by
        exact_mod_cast (by omega : ⌊2 * v⌋₊ = 2 * (⌊2 * v⌋₊ / 2))
      rw [← hnot.2] at hq
      linarith
  unfold residue ExtendedMantissa.shiftRightOne
  rw [hhalf, mul_div_cancel₀ v two_ne_zero]
  congr 1
  rw [Bool.eq_iff_iff]
  simpa using hsticky

lemma shiftRight_residue (v : ℚ) (n : Nat) : residue v >>> n = residue (v / 2 ^ n) := by
  change n.repeat ExtendedMantissa.shiftRightOne (residue v) = _
  induction n with
  | zero => simp [Nat.repeat]
  | succ n ih =>
    rw [Nat.repeat, ih, shiftRightOne_residue, div_div, pow_succ]

lemma residue_of_floor {v : ℚ} {q : Nat} (h : ⌊2 * v⌋₊ = q) :
    residue v = ⟨q / 2, q % 2 != 0, decide (2 * v ≠ q)⟩ := by
  rw [residue, h]

/-- What is left of a number behind its whole part, by whether that is a half, less or more. -/
lemma residue_add (q : Nat) {f : ℚ} {b : Nat} (hb : b < 2) (hlow : b ≤ 2 * f)
    (hhigh : 2 * f < b + 1) : residue (q + f) = ⟨q, b = 1, 2 * f ≠ b⟩ := by
  have hnonneg : 0 ≤ f := by
    have : (0 : ℚ) ≤ b := b.cast_nonneg
    linarith
  have hfloor : ⌊2 * (q + f)⌋₊ = 2 * q + b := by
    rw [Nat.floor_eq_iff (by positivity)]
    push_cast
    constructor <;> linarith
  have hsticky : (2 * (q + f) ≠ (2 * q + b : Nat)) = (2 * f ≠ b) := by
    push_cast
    rw [mul_add, ne_eq, add_right_inj]
  have hwhole : (2 * q + b) / 2 = q := by omega
  have hround : ((2 * q + b) % 2 != 0) = decide (b = 1) := by
    rw [Bool.eq_iff_iff, bne_iff_ne, decide_eq_true_eq]
    omega
  rw [residue_of_floor hfloor, hwhole, hround]
  simp only [hsticky]

lemma ofMantissaAndAccuracy_fraction (q : Nat) {num den : Nat} (h : num < den) :
    ExtendedMantissa.ofMantissaAndAccuracy q (accuracyOfFraction num den) =
      residue (q + num / den) := by
  have hden : (0 : ℚ) < den := by exact_mod_cast Nat.zero_lt_of_lt h
  by_cases hnum : num = 0
  · subst hnum
    rw [Nat.cast_zero, zero_div, add_zero, residue_natCast]
    rfl
  have hpos : (0 : ℚ) < num / den := by
    have : (0 : ℚ) < num := by exact_mod_cast Nat.pos_of_ne_zero hnum
    positivity
  have hlt : (num / den : ℚ) < 1 := by
    rw [div_lt_one hden]
    exact_mod_cast h
  rw [accuracyOfFraction, if_neg hnum]
  rcases lt_trichotomy (2 * num) den with hhalf | hhalf | hhalf
  · have hless : 2 * (num / den : ℚ) < 1 := by
      rw [mul_div_assoc', div_lt_one hden]
      exact_mod_cast hhalf
    rw [residue_add q (b := 0) (by decide) (by simpa using hpos.le) (by simpa using hless),
      Nat.compare_eq_lt.mpr hhalf]
    simp [ExtendedMantissa.ofMantissaAndAccuracy, hpos.ne']
  · have heq : 2 * (num / den : ℚ) = 1 := by
      rw [mul_div_assoc', div_eq_one_iff_eq hden.ne']
      exact_mod_cast hhalf
    rw [residue_add q (b := 1) (by decide) (by simp [heq]) (by norm_num [heq]),
      Nat.compare_eq_eq.mpr hhalf]
    simp [ExtendedMantissa.ofMantissaAndAccuracy, heq]
  · have hmore : 1 < 2 * (num / den : ℚ) := by
      rw [mul_div_assoc', one_lt_div hden]
      exact_mod_cast hhalf
    rw [residue_add q (b := 1) (by decide) (by simpa using hmore.le) (by push_cast; linarith),
      Nat.compare_eq_gt.mpr hhalf]
    simp [ExtendedMantissa.ofMantissaAndAccuracy, hmore.ne']

/-! ### Rounding a number -/

/-- The exponent in which a double near a positive number is kept. -/
def level (v : ℚ) : Int :=
  Format.binary64.targetExponent (Int.log 2 v + 1)

/-- The magnitude of a rounded mantissa, which may have one digit too many. -/
def settle (s : Sign) (q : Nat) (e : Int) : UnpackedFloat :=
  let shifted := shiftToTargetExponent Format.binary64 q e .exact
  if h : shifted.1.mantissa = 0 then .zero s
  else .finite s shifted.1.mantissa shifted.2 (Nat.pos_of_ne_zero h)

lemma settle_eq_finite (s : Sign) {q : Nat} {e e' : Int} {em : ExtendedMantissa}
    (h : shiftToTargetExponent Format.binary64 q e .exact = (em, e')) (hpos : 0 < em.mantissa) :
    settle s q e = .finite s em.mantissa e' hpos := by
  have hmantissa : (shiftToTargetExponent Format.binary64 q e .exact).1.mantissa = em.mantissa := by
    rw [h]
  have hexponent : (shiftToTargetExponent Format.binary64 q e .exact).2 = e' := by rw [h]
  rw [settle]
  split
  · rename_i hzero
    rw [hmantissa] at hzero
    omega
  · exact finite_congr hmantissa hexponent _ _

/-- The double nearest to a nonnegative number, ties to even. -/
def nearest (v : ℚ) : Float :=
  if v = 0 then .ofModel (.pack (.zero .positive))
  else .ofModel (.pack (settle .positive (residue (v / 2 ^ level v)).roundedMantissa (level v)))

lemma targetExponent_eq (t : Int) : Format.binary64.targetExponent t = max (t - 53) (-1074) :=
  rfl

lemma targetExponent_totalExponent {v : ℚ} {m : Nat} {e : Int} (hv : 0 < v)
    (hm : m = ⌊v / 2 ^ e⌋₊) (he : e ≤ level v) :
    Format.binary64.targetExponent (totalExponent m e) = level v := by
  have hpow : (0 : ℚ) < 2 ^ e := by positivity
  have hlow : (m : ℚ) * 2 ^ e ≤ v := by
    rw [← le_div_iff₀ hpow, hm]
    exact Nat.floor_le (by positivity)
  have hhigh : v < (m + 1) * 2 ^ e := by
    rw [← div_lt_iff₀ hpow, hm]
    exact Nat.lt_floor_add_one _
  rw [level, targetExponent_eq] at he ⊢
  rw [targetExponent_eq, totalExponent]
  by_cases hzero : m = 0
  · -- below the last place there is nothing but the least exponent
    subst hzero
    have hlog : Int.log 2 v < e := by
      rw [← Int.lt_zpow_iff_log_lt one_lt_two hv]
      simpa using hhigh
    simp only [Nat.log2_zero]
    omega
  · have hlog₁ : (m.log2 : Int) + e ≤ Int.log 2 v := by
      rw [← Int.zpow_le_iff_le_log one_lt_two hv]
      push_cast
      rw [zpow_add₀ two_ne_zero, zpow_natCast]
      refine le_trans ?_ hlow
      have : 2 ^ m.log2 ≤ m := Nat.log2_self_le hzero
      gcongr
      exact_mod_cast this
    have hlog₂ : Int.log 2 v < (m.log2 + 1 : Nat) + e := by
      rw [← Int.lt_zpow_iff_log_lt one_lt_two hv]
      push_cast
      rw [zpow_add₀ two_ne_zero, zpow_add₀ two_ne_zero, zpow_natCast, zpow_one]
      refine lt_of_lt_of_le hhigh ?_
      have : m + 1 ≤ 2 ^ m.log2 * 2 := Nat.lt_log2_self
      gcongr
      exact_mod_cast this
    push_cast at hlog₂
    have : Int.log 2 v = m.log2 + e := by omega
    rw [this]
    congr 1
    omega

/-- Rounding sees nothing of a number but its sign and its value, once there are digits enough. -/
theorem roundWithAccuracy_eq_settle (s : Sign) {v : ℚ} {m : Nat} {e : Int} {a : Accuracy} (hv : 0 < v)
    (h : ExtendedMantissa.ofMantissaAndAccuracy m a = residue (v / 2 ^ e)) (he : e ≤ level v) :
    roundWithAccuracy Format.binary64 s m e a =
      settle s (residue (v / 2 ^ level v)).roundedMantissa (level v) := by
  have hm : m = ⌊v / 2 ^ e⌋₊ := by
    rw [← mantissa_residue, ← h]
    cases a with
    | exact => rfl
    | inexact o => cases o <;> rfl
  have htarget := targetExponent_totalExponent hv hm he
  have hshift : shiftToTargetExponent Format.binary64 m e a =
      (residue (v / 2 ^ level v), level v) := by
    have hsteps : e + ((level v - e).toNat : Int) = level v := by omega
    rw [shiftToTargetExponent, htarget, shiftToExponent, h, shiftRight_residue, hsteps, div_div,
      ← zpow_natCast, ← zpow_add₀ two_ne_zero, hsteps]
  unfold roundWithAccuracy settle
  rw [hshift]

lemma roundWithAccuracy_eq {v : ℚ} {m : Nat} {e : Int} {a : Accuracy} (hv : 0 < v)
    (h : ExtendedMantissa.ofMantissaAndAccuracy m a = residue (v / 2 ^ e)) (he : e ≤ level v) :
    Float.ofModel (.pack (roundWithAccuracy Format.binary64 .positive m e a)) = nearest v := by
  rw [nearest, if_neg hv.ne', roundWithAccuracy_eq_settle .positive hv h he]

/-! ### Numbers that are doubles already -/

lemma value_pos {m : Nat} (hm : 0 < m) (e : Int) : (0 : ℚ) < m * 2 ^ e := by
  have : (0 : ℚ) < m := by exact_mod_cast hm
  positivity

lemma log_mul_zpow {m : Nat} (hm : m ≠ 0) (e : Int) :
    Int.log 2 (m * 2 ^ e : ℚ) = m.log2 + e := by
  have hpos := value_pos (Nat.pos_of_ne_zero hm) e
  apply le_antisymm
  · have : Int.log 2 (m * 2 ^ e : ℚ) < (m.log2 + 1 : Nat) + e := by
      rw [← Int.lt_zpow_iff_log_lt one_lt_two hpos, Nat.cast_ofNat, zpow_add₀ two_ne_zero,
        zpow_natCast]
      gcongr
      exact_mod_cast Nat.lt_log2_self
    omega
  · rw [← Int.zpow_le_iff_le_log one_lt_two hpos, Nat.cast_ofNat, zpow_add₀ two_ne_zero,
      zpow_natCast]
    gcongr
    exact_mod_cast Nat.log2_self_le hm

section Canonical

variable {m : Nat} {e : Int} (h : Canonical m e)

include h

lemma Canonical.targetExponent_eq :
    Format.binary64.targetExponent (totalExponent m e) = e := by
  obtain ⟨hpos, hlt, hle, -, hfull⟩ := h
  rw [Double.targetExponent_eq, totalExponent]
  have hlog := (Nat.log2_lt hpos.ne').mpr hlt
  rcases hfull with hfull | rfl
  · rw [log2_eq hfull hlt]
    omega
  · omega

lemma Canonical.value_pos : (0 : ℚ) < m * 2 ^ e :=
  Double.value_pos h.pos e

lemma Canonical.level_eq : level (m * 2 ^ e) = e := by
  have htotal : (m.log2 : Int) + e + 1 = totalExponent m e := by
    rw [totalExponent]
    omega
  rw [level, log_mul_zpow h.pos.ne', htotal, h.targetExponent_eq]

/-- A number that a double is equal to is rounded to that double. -/
theorem nearest_eq_ofCanonical : nearest (m * 2 ^ e) = ofCanonical .positive h := by
  have hvalue : (m * 2 ^ e / 2 ^ e : ℚ) = m := by
    rw [mul_div_assoc, div_self (by positivity), mul_one]
  have hrounded : ExtendedMantissa.roundedMantissa ⟨m, false, false⟩ = m := rfl
  have hshift : shiftToTargetExponent Format.binary64 m e .exact = (⟨m, false, false⟩, e) := by
    rw [shiftToTargetExponent, h.targetExponent_eq, shiftToExponent]
    simp only [sub_self, Int.toNat_zero, Nat.cast_zero, add_zero]
    rfl
  rw [nearest, if_neg h.value_pos.ne', h.level_eq, hvalue, residue_natCast, hrounded,
    settle_eq_finite .positive hshift h.pos]
  rfl

end Canonical

/-! ### Products and quotients -/

lemma ofMantissaAndAccuracy_exact (m : Nat) (e : Int) :
    ExtendedMantissa.ofMantissaAndAccuracy m .exact = residue (m * 2 ^ e / 2 ^ e) := by
  rw [mul_div_assoc, div_self (by positivity), mul_one, residue_natCast]
  rfl

/-- A product of which the mantissa is long enough. -/
lemma round_product {m : Nat} (e : Int) (hm : 2 ^ 52 ≤ m) :
    Float.ofModel (.pack (roundWithAccuracy Format.binary64 .positive m e .exact)) =
      nearest (m * 2 ^ e) := by
  have hpos : 0 < m := (Nat.two_pow_pos 52).trans_le hm
  apply roundWithAccuracy_eq (value_pos hpos e) (ofMantissaAndAccuracy_exact m e)
  have hlog := (Nat.le_log2 hpos.ne').mpr hm
  rw [level, log_mul_zpow hpos.ne', targetExponent_eq]
  omega

/-- A quotient is given with its remainder, and with digits enough. -/
lemma divCore_spec {m n : Nat} (hm : 0 < m) (hn : 0 < n) (e i : Int) :
    ExtendedMantissa.ofMantissaAndAccuracy (divCore Format.binary64 m e n i).1
        (divCore Format.binary64 m e n i).2.2 =
      residue (m * 2 ^ e / (n * 2 ^ i) / 2 ^ (divCore Format.binary64 m e n i).2.1)
    ∧ (divCore Format.binary64 m e n i).2.1 ≤ level (m * 2 ^ e / (n * 2 ^ i)) := by
  have hmq : (0 : ℚ) < m := by exact_mod_cast hm
  have hnq : (0 : ℚ) < n := by exact_mod_cast hn
  unfold divCore
  simp only
  generalize htarget : min (e - i)
    (Format.binary64.targetExponent (totalExponent m e - totalExponent n i)) = t
  have hsteps : ((e - i - t).toNat : Int) = e - i - t := by omega
  constructor
  · rw [ofMantissaAndAccuracy_fraction _ (Nat.mod_lt _ hn)]
    congr 1
    rw [Nat.shiftLeft_eq]
    have hdiv := Nat.div_add_mod (m * 2 ^ (e - i - t).toNat) n
    generalize m * 2 ^ (e - i - t).toNat / n = q at hdiv ⊢
    generalize m * 2 ^ (e - i - t).toNat % n = r at hdiv ⊢
    have hcast : (n * q + r : ℚ) = m * 2 ^ (e - i - t) := by
      rw [← hsteps, zpow_natCast]
      exact_mod_cast hdiv
    rw [zpow_sub₀ two_ne_zero, zpow_sub₀ two_ne_zero] at hcast
    field_simp at hcast ⊢
    linarith
  · have hlow : (2 : ℚ) ^ (totalExponent m e - totalExponent n i - 1) ≤
        m * 2 ^ e / (n * 2 ^ i) := by
      have hsplit : (2 : ℚ) ^ (totalExponent m e - totalExponent n i - 1) =
          2 ^ m.log2 * 2 ^ e / (2 ^ (n.log2 + 1) * 2 ^ i) := by
        rw [← zpow_natCast, ← zpow_natCast, ← zpow_add₀ two_ne_zero, ← zpow_add₀ two_ne_zero,
          ← zpow_sub₀ two_ne_zero, totalExponent, totalExponent]
        congr 1
        push_cast
        ring
      rw [hsplit]
      gcongr
      · exact_mod_cast Nat.log2_self_le hm.ne'
      · exact_mod_cast (Nat.lt_log2_self (n := n)).le
    have hlog := (Int.zpow_le_iff_le_log one_lt_two (by positivity)).mp hlow
    rw [level, targetExponent_eq]
    rw [targetExponent_eq] at htarget
    omega

lemma round_quotient {m n : Nat} (hm : 0 < m) (hn : 0 < n) (e i : Int) :
    Float.ofModel (.pack (roundWithAccuracy Format.binary64 .positive
      (divCore Format.binary64 m e n i).1 (divCore Format.binary64 m e n i).2.1
      (divCore Format.binary64 m e n i).2.2)) =
      nearest (m * 2 ^ e / (n * 2 ^ i)) := by
  obtain ⟨hresidue, hlevel⟩ := divCore_spec hm hn e i
  exact roundWithAccuracy_eq (div_pos (value_pos hm e) (value_pos hn i)) hresidue hlevel

/-! ### Beyond the range -/

lemma mantissa_shift (q : Nat) (e : Int) :
    ∃ k : Nat, (shiftToTargetExponent Format.binary64 q e .exact).1.mantissa = ⌊(q / 2 ^ k : ℚ)⌋₊ ∧
      (shiftToTargetExponent Format.binary64 q e .exact).2 = e + k ∧
      (k : Int) = max (Format.binary64.targetExponent (totalExponent q e) - e) 0 := by
  refine ⟨(Format.binary64.targetExponent (totalExponent q e) - e).toNat, ?_, rfl, by omega⟩
  have hexact : ExtendedMantissa.ofMantissaAndAccuracy q .exact = residue q :=
    (residue_natCast q).symm
  rw [shiftToTargetExponent, shiftToExponent, hexact, shiftRight_residue, mantissa_residue]

lemma settle_large {q : Nat} (hq : 0 < q) {e : Int} (he : 972 ≤ e) :
    Float.ofModel (.pack (settle .positive q e)) = .ofModel (.pack (.infinity .positive)) := by
  obtain ⟨k, hmantissa, hexponent, hk⟩ := mantissa_shift q e
  rw [targetExponent_eq, totalExponent] at hk
  have hle : 2 ^ k ≤ q := by
    refine le_trans ?_ (Nat.log2_self_le hq.ne')
    exact Nat.pow_le_pow_right two_pos (by omega)
  have hpos : 0 < (shiftToTargetExponent Format.binary64 q e .exact).1.mantissa := by
    rw [hmantissa, Nat.floor_pos, le_div_iff₀ (by positivity), one_mul]
    exact_mod_cast hle
  have hshift : shiftToTargetExponent Format.binary64 q e .exact =
      ((shiftToTargetExponent Format.binary64 q e .exact).1, e + k) := Prod.ext rfl hexponent
  rw [settle_eq_finite .positive hshift hpos]
  congr 1
  unfold Float.Model.pack UnpackedFloat.pack
  have hbias : 2 ^ 11 ≤
      (e + k + (Format.binary64.exponentBias : Int) + ((52 : Nat) : Int)).toNat + 1 := by
    change 2 ^ 11 ≤ (e + k + 1023 + 52).toNat + 1
    omega
  simp only [hbias, if_true]

/-- Rounding leaves a mantissa as it is, or takes the next one. -/
lemma roundedMantissa_bounds (x : ExtendedMantissa) :
    x.mantissa ≤ x.roundedMantissa ∧ x.roundedMantissa ≤ x.mantissa + 1 := by
  unfold ExtendedMantissa.roundedMantissa
  cases x.accuracy with
  | exact => exact ⟨Nat.le_refl _, Nat.le_succ _⟩
  | inexact o => cases o <;> simp only [Accuracy.roundToNearestEven] <;> omega

/-- A number that is far too large is rounded to infinity. -/
lemma nearest_large {v : ℚ} (h : 2 ^ (1025 : Int) ≤ v) :
    nearest v = .ofModel (.pack (.infinity .positive)) := by
  have hv : 0 < v := lt_of_lt_of_le (by positivity) h
  have hlog := (Int.zpow_le_iff_le_log one_lt_two hv).mp h
  have hlevel : level v = Int.log 2 v - 52 := by
    rw [level, targetExponent_eq]
    omega
  have hmantissa : 0 < (residue (v / 2 ^ level v)).mantissa := by
    rw [mantissa_residue, Nat.floor_pos, le_div_iff₀ (by positivity), one_mul]
    have : (2 : ℚ) ^ level v ≤ 2 ^ Int.log 2 v := by
      gcongr
      · exact one_le_two
      · omega
    exact this.trans (Int.zpow_log_le_self one_lt_two hv)
  have hrounded : 0 < (residue (v / 2 ^ level v)).roundedMantissa :=
    hmantissa.trans_le (roundedMantissa_bounds _).1
  rw [nearest, if_neg hv.ne', settle_large hrounded (by omega)]

/-- A number that is far too small is rounded to zero. -/
lemma nearest_small {v : ℚ} (hv : 0 ≤ v) (h : v < 2 ^ (-1076 : Int)) :
    nearest v = zero .positive := by
  rcases hv.eq_or_lt with rfl | hpos
  · rw [nearest, if_pos rfl]
    rfl
  have hlog := (Int.lt_zpow_iff_log_lt one_lt_two hpos).mp h
  have hlevel : level v = -1074 := by
    rw [level, targetExponent_eq]
    omega
  have hfloor : ⌊2 * (v / 2 ^ (-1074 : Int))⌋₊ = 0 := by
    rw [Nat.floor_eq_zero, ← mul_div_assoc, div_lt_one (by positivity)]
    calc 2 * v < 2 * 2 ^ (-1076 : Int) := by gcongr
      _ ≤ 2 ^ (-1074 : Int) := by
        rw [← zpow_one_add₀ two_ne_zero]
        exact zpow_le_zpow_right₀ one_le_two (by norm_num)
  have hrounded : (residue (v / 2 ^ level v)).roundedMantissa = 0 := by
    rw [hlevel, residue_of_floor hfloor]
    cases decide (2 * (v / 2 ^ (-1074 : Int)) ≠ (0 : Nat)) <;> rfl
  rw [nearest, if_neg hpos.ne', hrounded, hlevel, settle]
  rfl

end Double

end Iconsmith
