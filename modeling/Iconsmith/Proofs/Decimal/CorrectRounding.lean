import Iconsmith.Proofs.Decimal.Bounds
import Iconsmith.Proofs.Decimal.Nearest

/-!
# Correct rounding

`Double.Rounds v x` says that the double `x` is the number `v` correctly rounded, without a word on how it
is done: no finite double is nearer, of two that are equally near it has the even mantissa, and the
infinities begin half a step beyond the largest double. `Double.nearest` rounds correctly.

Rounding looks at whole steps only, of the size that doubles near the number are apart. The doubles with
smaller steps do not count: all of them are below the least number that has all its digits in these steps,
which is no larger than the number itself.
-/

namespace Iconsmith

namespace Double

open Float.Model.UnpackedFloat (Sign)

/-! ### Numbers of doubles -/

/-- A magnitude with a sign. -/
def signed (s : Sign) (v : ℚ) : ℚ :=
  match s with
  | .positive => v
  | .negative => -v

/-- The number that a finite double is equal to. -/
def value (x : Float) : ℚ :=
  signed (signOf x) (magnitude x)

lemma signOf_zero (s : Sign) : signOf (zero s) = s := by
  cases s <;> rfl

lemma magnitude_zero (s : Sign) : magnitude (zero s) = 0 := by
  have hmantissa : (Binary.ofFloat (zero s)).mantissa = 0 := by cases s <;> rfl
  rw [magnitude, hmantissa, Nat.cast_zero, zero_mul]

lemma value_zero (s : Sign) : value (zero s) = 0 := by
  rw [value, magnitude_zero]
  cases signOf (zero s) <;> simp [signed]

lemma value_ofCanonical (s : Sign) {m : Nat} {e : Int} (h : Canonical m e) :
    value (ofCanonical s h) = signed s (m * 2 ^ e) := by
  obtain ⟨-, hsign, hbinary⟩ := ofFloat_ofCanonical s h
  rw [value, magnitude, hsign, hbinary]

lemma isFinite_ofCanonical (s : Sign) {m : Nat} {e : Int} (h : Canonical m e) :
    (ofCanonical s h).isFinite = true :=
  (isFinite_iff _).mpr (ofFloat_ofCanonical s h).1

lemma isFinite_zero (s : Sign) : (zero s).isFinite = true := by
  cases s <;> decide

lemma neg_zero (s : Sign) : -zero s = zero (-s) := by
  cases s <;> decide

/-- Every finite double is a whole number of steps, unless it is well below where the steps are kept. -/
lemma value_cases {y : Float} (hy : y.isFinite = true) {e : Int} (he : -1074 ≤ e) :
    (∃ k : Int, value y = k * 2 ^ e) ∨ -1074 < e ∧ |value y| < 2 ^ 52 * 2 ^ e := by
  rcases isFinite_cases hy with ⟨s, rfl⟩ | ⟨s, m, i, h, rfl⟩
  · exact .inl ⟨0, by simp [value_zero]⟩
  rw [value_ofCanonical]
  rcases le_or_gt e i with hei | hie
  · obtain ⟨j, rfl⟩ := Int.le.dest hei
    left
    have hvalue : (m : ℚ) * 2 ^ (e + j) = ((m * 2 ^ j : Nat) : Int) * 2 ^ e := by
      rw [zpow_add₀ two_ne_zero, zpow_natCast]
      push_cast
      ring
    cases s with
    | positive => exact ⟨_, hvalue⟩
    | negative =>
      refine ⟨-((m * 2 ^ j : Nat) : Int), ?_⟩
      rw [signed, hvalue]
      push_cast
      ring
  · right
    have hle := h.le
    refine ⟨by omega, ?_⟩
    have habs : |signed s ((m : ℚ) * 2 ^ i)| = m * 2 ^ i := by
      cases s with
      | positive => exact abs_of_pos h.value_pos
      | negative => exact (abs_neg _).trans (abs_of_pos h.value_pos)
    rw [habs]
    calc (m : ℚ) * 2 ^ i < 2 ^ 53 * 2 ^ i := by
          gcongr
          exact_mod_cast h.lt
      _ = 2 ^ (53 + i) := by
          rw [zpow_add₀ two_ne_zero]
          rfl
      _ ≤ 2 ^ (52 + e) := zpow_le_zpow_right₀ one_le_two (by omega)
      _ = 2 ^ 52 * 2 ^ e := by
          rw [zpow_add₀ two_ne_zero]
          rfl

/-! ### Whole numbers nearest to a number -/

section Whole

variable {w : ℚ}

lemma roundedMantissa_of_even {m : Nat} (h : ⌊2 * w⌋₊ = 2 * m) :
    (residue w).roundedMantissa = m := by
  rw [residue_of_floor h, Nat.mul_div_cancel_left m two_pos, Nat.mul_mod_right]
  cases decide (2 * w ≠ (2 * m : Nat)) <;> rfl

lemma roundedMantissa_of_odd {m : Nat} (h : ⌊2 * w⌋₊ = 2 * m + 1) :
    (residue w).roundedMantissa = if 2 * w = (2 * m + 1 : Nat) then m + m % 2 else m + 1 := by
  have hhalf : (2 * m + 1) / 2 = m := by omega
  have hodd : ((2 * m + 1) % 2 != 0) = true := by simp
  rw [residue_of_floor h, hhalf, hodd]
  split_ifs with heq
  · rw [decide_eq_false (not_not.mpr heq)]
    rfl
  · rw [decide_eq_true heq]
    rfl

/-- Rounding moves a number by half a step at most, and by half a step only to an even number. -/
lemma abs_roundedMantissa_sub (hw : 0 ≤ w) :
    |((residue w).roundedMantissa : ℚ) - w| ≤ 1 / 2
      ∧ (|((residue w).roundedMantissa : ℚ) - w| = 1 / 2 → Even (residue w).roundedMantissa) := by
  have hlow := Nat.floor_le (show 0 ≤ 2 * w by positivity)
  have hhigh := Nat.lt_floor_add_one (2 * w)
  obtain ⟨m, hm | hm⟩ : ∃ m, ⌊2 * w⌋₊ = 2 * m ∨ ⌊2 * w⌋₊ = 2 * m + 1 := ⟨⌊2 * w⌋₊ / 2, by omega⟩
  all_goals
    rw [hm] at hlow hhigh
    push_cast at hlow hhigh
  · have hless : |(m : ℚ) - w| < 1 / 2 := by
      rw [abs_lt]
      constructor <;> linarith
    rw [roundedMantissa_of_even hm]
    exact ⟨hless.le, fun heq => absurd heq hless.ne⟩
  · rw [roundedMantissa_of_odd hm]
    split_ifs with htie
    · push_cast at htie
      have hm2 : ((m % 2 : Nat) : ℚ) = 0 ∨ ((m % 2 : Nat) : ℚ) = 1 := by
        rcases Nat.mod_two_eq_zero_or_one m with h | h <;> simp [h]
      refine ⟨?_, fun _ => ?_⟩
      · push_cast
        rw [abs_le]
        rcases hm2 with h | h <;> rw [h] <;> constructor <;> linarith
      · rw [Nat.even_iff]
        omega
    · have hmore : (2 * m + 1 : ℚ) < 2 * w := by
        refine hlow.lt_of_ne fun heq => htie ?_
        push_cast
        exact heq.symm
      have hless : |((m + 1 : Nat) : ℚ) - w| < 1 / 2 := by
        push_cast
        rw [abs_lt]
        constructor <;> linarith
      exact ⟨hless.le, fun heq => absurd heq hless.ne⟩

/-- No whole number is nearer, and another one that is as near leaves an even one. -/
lemma roundedMantissa_nearest (hw : 0 ≤ w) (k : Int) :
    |((residue w).roundedMantissa : ℚ) - w| ≤ |k - w|
      ∧ (|((residue w).roundedMantissa : ℚ) - w| = |k - w| →
        k = (residue w).roundedMantissa ∨ Even (residue w).roundedMantissa) := by
  obtain ⟨hhalf, heven⟩ := abs_roundedMantissa_sub hw
  generalize (residue w).roundedMantissa = q at hhalf heven ⊢
  by_cases hk : k = q
  · subst hk
    exact ⟨le_of_eq (by push_cast; rfl), fun _ => .inl rfl⟩
  -- another whole number is at least one step away, so half a step from what is rounded
  have hstep : (1 : ℚ) ≤ |(k : ℚ) - q| := by
    exact_mod_cast Int.one_le_abs (sub_ne_zero.mpr hk)
  have hsum : |(k : ℚ) - q| ≤ |k - w| + |(q : ℚ) - w| := by
    have := abs_sub_le (k : ℚ) w q
    rwa [abs_sub_comm w] at this
  exact ⟨by linarith, fun heq => .inr (heven (by linarith))⟩

/-- What is rounded stays below an even number as long as it is more than half a step below. -/
lemma roundedMantissa_lt_iff (hw : 0 ≤ w) {n : Nat} (hn : Even n) :
    (residue w).roundedMantissa < n ↔ w < n - 1 / 2 := by
  obtain ⟨hhalf, heven⟩ := abs_roundedMantissa_sub hw
  generalize (residue w).roundedMantissa = q at hhalf heven ⊢
  obtain ⟨hlow, hhigh⟩ := abs_le.mp hhalf
  constructor
  · intro hlt
    by_contra hle
    have hq : (q : ℚ) + 1 ≤ n := by exact_mod_cast hlt
    have htie : |(q : ℚ) - w| = 1 / 2 := by
      rw [abs_of_nonpos (by linarith)]
      linarith
    have hnext : n = q + 1 := by
      have : (n : ℚ) ≤ (q + 1 : Nat) := by
        push_cast
        linarith
      exact le_antisymm (by exact_mod_cast this) hlt
    have := heven htie
    grind
  · intro hlt
    have : (q : ℚ) < n := by linarith
    exact_mod_cast this

end Whole

/-! ### Doubles nearest to a number -/

/-- The least magnitude that is rounded to infinity: half a step more than the largest double. -/
def overflow : ℚ :=
  2 ^ (1024 : Int) - 2 ^ (970 : Int)

lemma limit_eq : (2 : ℚ) ^ (1024 : Int) = 2 ^ 53 * 2 ^ (971 : Int) := by
  rw [show (1024 : Int) = 53 + 971 by rfl, zpow_add₀ two_ne_zero]
  rfl

lemma overflow_eq : overflow = (2 ^ 53 - 1 / 2) * 2 ^ (971 : Int) := by
  have hhalf : (2 : ℚ) ^ (971 : Int) = 2 ^ (970 : Int) * 2 := zpow_add_one₀ two_ne_zero 970
  rw [overflow, limit_eq, hhalf]
  ring

lemma overflow_pos : 0 < overflow := by
  rw [overflow_eq]
  have : (0 : ℚ) < 2 ^ (971 : Int) := by positivity
  norm_num [this]

lemma infinity_positive : Float.ofModel (.pack (.infinity .positive)) = 1 / 0 := by
  decide

/-- The whole number of steps that a positive number is rounded to. -/
def steps (v : ℚ) : Nat :=
  (residue (v / 2 ^ level v)).roundedMantissa

section Nearest

variable {v : ℚ}

lemma steps_spec (hv : 0 < v) :
    steps v ≤ 2 ^ 53 ∧ (level v = -1074 ∨ 2 ^ 52 ≤ steps v) := by
  obtain ⟨-, hhigh, hlow⟩ := div_level hv
  exact ⟨roundedMantissa_le (by positivity) hhigh, hlow.imp_right le_roundedMantissa⟩

/-- A number in the range of doubles is rounded to less than the first power of two beyond. -/
lemma lt_overflow_iff (hv : 0 < v) :
    v < overflow ↔ (steps v : ℚ) * 2 ^ level v < 2 ^ (1024 : Int) := by
  obtain ⟨-, hhigh, hlow⟩ := div_level hv
  obtain ⟨hq, hfull⟩ := steps_spec hv
  have hunit : (0 : ℚ) < 2 ^ level v := by positivity
  have hlast : (0 : ℚ) < 2 ^ (971 : Int) := by positivity
  rw [overflow_eq, limit_eq]
  rcases lt_trichotomy (level v) 971 with hlt | heq | hgt
  · have hhalf : (2 : ℚ) ^ level v * 2 ≤ 2 ^ (971 : Int) := by
      rw [← zpow_add_one₀ two_ne_zero]
      exact zpow_le_zpow_right₀ one_le_two (by omega)
    have hsteps : (steps v : ℚ) * 2 ^ level v ≤ (2 ^ 53 : Nat) * 2 ^ level v := by gcongr
    rw [div_le_iff₀ hunit] at hhigh
    generalize (2 : ℚ) ^ (971 : Int) = last at *
    push_cast at hhigh hsteps
    exact iff_of_true (by linarith) (by linarith)
  · have hround : steps v < 2 ^ 53 ↔ v / 2 ^ level v < (2 ^ 53 : Nat) - 1 / 2 :=
      roundedMantissa_lt_iff (by positivity) (by decide)
    rw [div_lt_iff₀ hunit, Nat.cast_pow, Nat.cast_ofNat] at hround
    rw [← heq, ← hround, mul_lt_mul_iff_left₀ hunit]
    exact_mod_cast Iff.rfl
  · have hdouble : (2 : ℚ) ^ (971 : Int) * 2 ≤ 2 ^ level v := by
      rw [← zpow_add_one₀ two_ne_zero]
      exact zpow_le_zpow_right₀ one_le_two (by omega)
    have hlarge : ((2 ^ 52 : Nat) : ℚ) ≤ v / 2 ^ level v := hlow.resolve_left (by omega)
    have hfull : 2 ^ 52 ≤ steps v := hfull.resolve_left (by omega)
    have hsteps : ((2 ^ 52 : Nat) : ℚ) * 2 ^ level v ≤ steps v * 2 ^ level v := by gcongr
    rw [le_div_iff₀ hunit] at hlarge
    generalize (2 : ℚ) ^ (971 : Int) = last at *
    push_cast at hlarge hsteps
    exact iff_of_false (by linarith) (by linarith)

lemma nearest_of_lt (hv : 0 < v) (h : v < overflow) :
    steps v = 0 ∧ nearest v = zero .positive ∨
      ∃ m i, ∃ hc : Canonical m i, nearest v = ofCanonical .positive hc
        ∧ (m : ℚ) * 2 ^ i = steps v * 2 ^ level v ∧ (Even (steps v) → Even m) := by
  obtain ⟨hlevel, -, -⟩ := div_level hv
  obtain ⟨hq, hfull⟩ := steps_spec hv
  have hnearest : nearest v = .ofModel (.pack (settle .positive (steps v) (level v))) := by
    rw [nearest, if_neg hv.ne', steps]
  rcases Nat.eq_zero_or_pos (steps v) with hzero | hpos
  · left
    rw [hnearest, hzero, settle_zero]
    exact ⟨rfl, rfl⟩
  · right
    obtain ⟨m, i, hc, hsettle, hvalue, heven⟩ :=
      exists_settle_eq .positive hpos hlevel hq hfull ((lt_overflow_iff hv).mp h)
    rw [hnearest, hsettle]
    exact ⟨m, i, hc, rfl, hvalue, heven⟩

lemma nearest_of_le (h : overflow ≤ v) : nearest v = 1 / 0 := by
  have hv : 0 < v := overflow_pos.trans_le h
  obtain ⟨hq, hfull⟩ := steps_spec hv
  have hlarge : 2 ^ 53 * 2 ^ (971 : Int) ≤ (steps v : ℚ) * 2 ^ level v := by
    rw [← limit_eq]
    exact not_lt.mp fun hlt => ((lt_overflow_iff hv).mpr hlt).not_ge h
  have hlevel : 971 ≤ level v := by
    have hq : (steps v : ℚ) ≤ 2 ^ 53 := by exact_mod_cast hq
    have hle : (2 ^ 53 : ℚ) * 2 ^ (971 : Int) ≤ 2 ^ 53 * 2 ^ level v :=
      hlarge.trans (by gcongr)
    exact (zpow_le_zpow_iff_right₀ one_lt_two).mp (le_of_mul_le_mul_left hle (by positivity))
  have hsteps := hfull.resolve_left (by omega)
  rw [nearest, if_neg hv.ne', ← steps, ← infinity_positive]
  rcases hlevel.eq_or_lt with heq | hlt
  · have hcarry : steps v = 2 ^ 53 := by
      rw [← heq, mul_le_mul_iff_left₀ (by positivity)] at hlarge
      exact le_antisymm hq (by exact_mod_cast hlarge)
    rw [hcarry, ← heq, settle_carry .positive (by decide)]
    rfl
  · exact settle_large ((Nat.two_pow_pos 52).trans_le hsteps) hlt

/-- In the range of doubles a positive number is rounded to a whole number of steps, and its mantissa is
even if that number is. -/
lemma value_nearest (hv : 0 < v) (h : v < overflow) :
    (nearest v).isFinite = true ∧ value (nearest v) = steps v * 2 ^ level v
      ∧ (Even (steps v) → Even (Binary.ofFloat (nearest v)).mantissa) := by
  rcases nearest_of_lt hv h with ⟨hzero, hnearest⟩ | ⟨m, i, hc, hnearest, hvalue, heven⟩
  · rw [hnearest, hzero]
    refine ⟨isFinite_zero _, ?_, fun heven => ?_⟩
    · rw [value_zero, Nat.cast_zero, zero_mul]
    · exact heven
  · rw [hnearest]
    refine ⟨isFinite_ofCanonical _ hc, ?_, fun h => ?_⟩
    · exact (value_ofCanonical _ hc).trans hvalue
    · rw [(ofFloat_ofCanonical _ hc).2.2]
      exact heven h

/-- No double is nearer than the one that a number is rounded to, and another one that is as near leaves an
even mantissa. -/
lemma nearest_spec (hv : 0 < v) (h : v < overflow) {y : Float} (hy : y.isFinite = true) :
    |value (nearest v) - v| ≤ |value y - v|
      ∧ (|value (nearest v) - v| = |value y - v| →
        value y = value (nearest v) ∨ Even (Binary.ofFloat (nearest v)).mantissa) := by
  obtain ⟨-, hvalue, heven⟩ := value_nearest hv h
  obtain ⟨hlevel, -, hfull⟩ := div_level hv
  have hunit : (0 : ℚ) < 2 ^ level v := by positivity
  have hround (k : Int) := roundedMantissa_nearest (w := v / 2 ^ level v) (by positivity) k
  have hscale (a : ℚ) : |a * 2 ^ level v - v| = |a - v / 2 ^ level v| * 2 ^ level v := by
    rw [← abs_of_pos hunit, ← abs_mul, abs_of_pos hunit, sub_mul, div_mul_cancel₀ v hunit.ne']
  rw [← steps] at hround
  rw [hvalue, hscale]
  rcases value_cases hy hlevel with ⟨k, hk⟩ | ⟨hnormal, hsmall⟩
  · obtain ⟨hle, htie⟩ := hround k
    rw [hk, hscale]
    refine ⟨by gcongr, fun heq => ?_⟩
    rcases htie (mul_right_cancel₀ hunit.ne' heq) with rfl | hsteps
    · exact .inl (by push_cast; rfl)
    · exact .inr (heven hsteps)
  · -- the first number with all digits is nearer than a double with a smaller step
    have hle : |(steps v : ℚ) - v / 2 ^ level v| ≤ |((2 ^ 52 : Nat) : ℚ) - v / 2 ^ level v| := by
      simpa only [Int.cast_natCast] using (hround (2 ^ 52 : Nat)).1
    have hlarge := hfull.resolve_left hnormal.ne'
    rw [le_div_iff₀ hunit] at hlarge
    have hnearer : |(2 ^ 52 : Nat) - v / 2 ^ level v| * 2 ^ level v < |value y - v| := by
      rw [← hscale, abs_of_nonpos (by linarith), abs_of_nonpos]
      · have := (abs_lt.mp hsmall).2
        push_cast
        linarith
      · have := (abs_lt.mp hsmall).2
        push_cast at hlarge
        linarith
    have hless := (mul_le_mul_of_nonneg_right hle hunit.le).trans_lt hnearer
    exact ⟨hless.le, fun heq => absurd heq hless.ne⟩

end Nearest

/-! ### Correct rounding -/

/-- A double is a number correctly rounded: to infinity from half a step beyond the largest double on, and
else to the finite double that is nearest, of two doubles to the one with an even mantissa. -/
structure Rounds (v : ℚ) (x : Float) : Prop where
  isFinite : x.isFinite = true ↔ |v| < overflow
  above : overflow ≤ v → x = 1 / 0
  below : v ≤ -overflow → x = -(1 / 0)
  nearest : x.isFinite = true → ∀ y : Float, y.isFinite = true → |value x - v| ≤ |value y - v|
  even : x.isFinite = true → ∀ y : Float, y.isFinite = true → |value x - v| = |value y - v| →
    value y = value x ∨ Even (Binary.ofFloat x).mantissa

lemma rounds_zero : Rounds 0 (zero .positive) where
  isFinite := by
    rw [abs_zero]
    exact iff_of_true (isFinite_zero _) overflow_pos
  above h := absurd h overflow_pos.not_ge
  below h := absurd h (neg_lt_zero.mpr overflow_pos).not_ge
  nearest _ y _ := by simp [value_zero]
  even _ y _ h := by
    simp only [value_zero, sub_zero, abs_zero] at h ⊢
    exact .inl (abs_eq_zero.mp h.symm)

/-- The nearest double is the number correctly rounded. -/
theorem rounds_nearest {v : ℚ} (hv : 0 ≤ v) : Rounds v (Double.nearest v) := by
  rcases hv.eq_or_lt with rfl | hpos
  · rw [nearest_zero]
    exact rounds_zero
  have hinfinite : (1 / 0 : Float).isFinite = false := by decide
  have hrange : (Double.nearest v).isFinite = true ↔ v < overflow := by
    constructor
    · intro hfinite
      by_contra hle
      rw [nearest_of_le (not_lt.mp hle), hinfinite] at hfinite
      contradiction
    · exact fun h => (value_nearest hpos h).1
  exact {
    isFinite := by rwa [abs_of_pos hpos]
    above := nearest_of_le
    below := fun h => by linarith [overflow_pos]
    nearest := fun hfinite y hy => (nearest_spec hpos (hrange.mp hfinite) hy).1
    even := fun hfinite y hy => (nearest_spec hpos (hrange.mp hfinite) hy).2 }

lemma neg_of_isFinite {x : Float} (hx : x.isFinite = true) :
    (-x).isFinite = true ∧ value (-x) = -value x
      ∧ (Binary.ofFloat (-x)).mantissa = (Binary.ofFloat x).mantissa := by
  rcases isFinite_cases hx with ⟨s, rfl⟩ | ⟨s, m, e, h, rfl⟩
  · rw [neg_zero, value_zero, value_zero]
    refine ⟨isFinite_zero _, by simp, ?_⟩
    cases s <;> rfl
  · rw [neg_ofCanonical, value_ofCanonical, value_ofCanonical, (ofFloat_ofCanonical _ h).2.2,
      (ofFloat_ofCanonical _ h).2.2]
    refine ⟨isFinite_ofCanonical _ h, ?_, rfl⟩
    cases s with
    | positive => rfl
    | negative => exact (neg_neg _).symm

lemma isFinite_neg (x : Float) : (-x).isFinite = x.isFinite := by
  cases hx : x.isFinite with
  | true => exact (neg_of_isFinite hx).1
  | false => rcases not_isFinite_cases hx with rfl | rfl | rfl <;> decide

/-- The opposite of a number is rounded to the opposite. -/
lemma Rounds.neg {v : ℚ} {x : Float} (h : Rounds v x) : Rounds (-v) (-x) := by
  have hdistance {y : Float} (hy : y.isFinite = true) : |value (-y) - v| = |value y - -v| := by
    rw [(neg_of_isFinite hy).2.1, ← abs_neg, sub_neg_eq_add]
    congr 1
    ring
  have hself (hx : x.isFinite = true) : |value (-x) - -v| = |value x - v| := by
    rw [(neg_of_isFinite hx).2.1, ← abs_neg]
    congr 1
    ring
  refine ⟨?_, fun habove => ?_, fun hbelow => ?_, fun hx y hy => ?_, fun hx y hy heq => ?_⟩
  · rw [isFinite_neg, abs_neg]
    exact h.isFinite
  · rw [h.below (le_neg_of_le_neg habove)]
    decide
  · rw [h.above (neg_le_neg_iff.mp hbelow)]
  · rw [isFinite_neg] at hx
    rw [hself hx, ← hdistance hy]
    exact h.nearest hx (-y) ((isFinite_neg y).trans hy)
  · rw [isFinite_neg] at hx
    rw [hself hx, ← hdistance hy] at heq
    rw [(neg_of_isFinite hx).2.1, (neg_of_isFinite hx).2.2]
    refine (h.even hx (-y) ((isFinite_neg y).trans hy) heq).imp_left fun hvalue => ?_
    rw [← hvalue, (neg_of_isFinite hy).2.1, neg_neg]

lemma signOf_nearest {v : ℚ} (hv : 0 ≤ v) :
    signOf (Double.nearest v) = .positive ∧ signOf (-Double.nearest v) = .negative := by
  rcases hv.eq_or_lt with rfl | hpos
  · rw [nearest_zero, neg_zero, signOf_zero, signOf_zero]
    exact ⟨rfl, rfl⟩
  rcases lt_or_ge v overflow with hlt | hle
  · rcases nearest_of_lt hpos hlt with ⟨-, hzero⟩ | ⟨m, e, h, hfinite, -⟩
    · rw [hzero, neg_zero, signOf_zero, signOf_zero]
      exact ⟨rfl, rfl⟩
    · rw [hfinite, neg_ofCanonical, (ofFloat_ofCanonical _ h).2.1, (ofFloat_ofCanonical _ h).2.1]
      exact ⟨rfl, rfl⟩
  · rw [nearest_of_le hle]
    exact ⟨rfl, rfl⟩

end Double

lemma Decimal.value_nonneg (d : Decimal) : 0 ≤ d.value := by
  rw [Decimal.value]
  positivity

end Iconsmith
