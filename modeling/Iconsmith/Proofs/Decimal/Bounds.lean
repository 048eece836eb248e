import Iconsmith.Proofs.Decimal.Rounding

/-!
# Bounds of doubles

A number up to a bound that is a double itself is rounded to a double up to that bound. So the sums,
products and quotients of bounded doubles are bounded, and in particular finite, as long as the sums,
products and quotients of the bounds are doubles.
-/

namespace Iconsmith

namespace Double

open Float.Model (Format UnpackedFloat totalExponent)
open Float.Model.UnpackedFloat (Sign Accuracy ExtendedMantissa roundWithAccuracy decreaseExponent
  divCore)

/-! ### Rounding up to a bound -/

/-- A number that is a double. -/
def Fits (c : ℚ) : Prop :=
  ∃ (u : Nat) (k : Int), u < 2 ^ 53 ∧ -1074 ≤ k ∧ k ≤ 971 ∧ c = u * 2 ^ k

lemma Fits.lt {c : ℚ} (h : Fits c) : c < 2 ^ (1024 : Int) := by
  obtain ⟨u, k, hu, -, hk, rfl⟩ := h
  calc (u : ℚ) * 2 ^ k < (2 ^ 53 : Nat) * 2 ^ k := by
        gcongr
    _ = 2 ^ (53 + k) := by
        rw [Nat.cast_pow, Nat.cast_ofNat, ← zpow_natCast, ← zpow_add₀ two_ne_zero]
        rfl
    _ ≤ 2 ^ (1024 : Int) := zpow_le_zpow_right₀ one_le_two (by omega)

lemma roundedMantissa_le {w : ℚ} (hw : 0 ≤ w) {n : Nat} (h : w ≤ n) :
    (residue w).roundedMantissa ≤ n := by
  by_cases hnat : ∃ k : Nat, w = k
  · obtain ⟨k, rfl⟩ := hnat
    rw [residue_natCast]
    exact_mod_cast h
  · have hne : (⌊w⌋₊ : ℚ) ≠ w := fun heq => hnat ⟨_, heq.symm⟩
    have hlt : (⌊w⌋₊ : ℚ) < n := ((Nat.floor_le hw).lt_of_ne hne).trans_le h
    have hfloor : ⌊w⌋₊ + 1 ≤ n := by exact_mod_cast hlt
    have hround := (roundedMantissa_bounds (residue w)).2
    rw [mantissa_residue] at hround
    exact hround.trans hfloor

lemma le_roundedMantissa {w : ℚ} {n : Nat} (h : n ≤ w) : n ≤ (residue w).roundedMantissa := by
  have hfloor : n ≤ (residue w).mantissa := by
    rw [mantissa_residue]
    exact Nat.le_floor h
  exact hfloor.trans (roundedMantissa_bounds (residue w)).1

/-- A number has at most as many digits as a double keeps, and fewer only near zero. -/
lemma div_level {v : ℚ} (hv : 0 < v) :
    -1074 ≤ level v ∧ v / 2 ^ level v ≤ (2 ^ 53 : Nat)
      ∧ (level v = -1074 ∨ ((2 ^ 52 : Nat) : ℚ) ≤ v / 2 ^ level v) := by
  have hlevel : level v = max (Int.log 2 v - 52) (-1074) := by
    rw [level, targetExponent_eq]
    congr 1
    omega
  have hpow : (0 : ℚ) < 2 ^ level v := by positivity
  refine ⟨by omega, ?_, ?_⟩
  · rw [div_le_iff₀ hpow]
    have hlt := Int.lt_zpow_succ_log_self one_lt_two v
    rw [Nat.cast_ofNat] at hlt
    refine hlt.le.trans ?_
    rw [Nat.cast_pow, Nat.cast_ofNat, ← zpow_natCast, ← zpow_add₀ two_ne_zero]
    exact zpow_le_zpow_right₀ one_le_two (by omega)
  · rcases eq_or_ne (level v) (-1074) with heq | hne
    · exact Or.inl heq
    · right
      have hle := Int.zpow_log_le_self one_lt_two hv
      rw [Nat.cast_ofNat] at hle
      rw [le_div_iff₀ hpow, Nat.cast_pow, Nat.cast_ofNat, ← zpow_natCast, ← zpow_add₀ two_ne_zero]
      refine le_trans ?_ hle
      exact zpow_le_zpow_right₀ one_le_two (by omega)

/-- A number up to a double keeps no digits that the double has not. -/
lemma level_le {v : ℚ} (hv : 0 < v) {u : Nat} {k : Int} (hu : u < 2 ^ 53) (hk : -1074 ≤ k)
    (h : v ≤ u * 2 ^ k) : level v ≤ k := by
  obtain ⟨-, -, hlow⟩ := div_level hv
  by_contra hlt
  rcases hlow with hlow | hlow
  · omega
  · have hlong : (2 : ℚ) ^ (52 + level v) ≤ v := by
      rw [le_div_iff₀ (by positivity)] at hlow
      rw [zpow_add₀ two_ne_zero]
      exact_mod_cast hlow
    have hshort : (u : ℚ) * 2 ^ k < 2 ^ (53 + k) := by
      rw [zpow_add₀ two_ne_zero]
      gcongr
      exact_mod_cast hu
    have := (zpow_lt_zpow_iff_right₀ one_lt_two).mp ((hlong.trans h).trans_lt hshort)
    omega

/-- A double in parts, up to a bound. -/
def Bounded (c : ℚ) : UnpackedFloat → Prop
  | .zero _ => 0 ≤ c
  | .finite _ m e _ => Canonical m e ∧ m * 2 ^ e ≤ c
  | _ => False

lemma settle_zero (s : Sign) (e : Int) : settle s 0 e = .zero s := by
  obtain ⟨k, hmantissa, -, -⟩ := mantissa_shift 0 e
  rw [settle]
  simp [hmantissa]

lemma Canonical.settle_eq (s : Sign) {m : Nat} {e : Int} (h : Canonical m e) :
    settle s m e = .finite s m e h.pos := by
  have hshift : UnpackedFloat.shiftToTargetExponent Format.binary64 m e .exact
      = (⟨m, false, false⟩, e) := by
    rw [UnpackedFloat.shiftToTargetExponent, h.targetExponent_eq, UnpackedFloat.shiftToExponent]
    simp only [sub_self, Int.toNat_zero, Nat.cast_zero, add_zero]
    rfl
  exact settle_eq_finite s hshift h.pos

/-- A mantissa with one digit too many is a power of two, and is halved. -/
lemma settle_carry (s : Sign) {e : Int} (he : -1074 ≤ e) :
    settle s (2 ^ 53) e = .finite s (2 ^ 52) (e + 1) (Nat.two_pow_pos 52) := by
  obtain ⟨k, hmantissa, hexponent, hk⟩ := mantissa_shift (2 ^ 53) e
  have hlog : (2 ^ 53 : Nat).log2 = 53 := Nat.log2_two_pow
  have hone : k = 1 := by
    rw [targetExponent_eq, totalExponent, hlog] at hk
    omega
  subst hone
  have hhalf : ⌊(((2 ^ 53 : Nat) : ℚ) / 2 ^ 1)⌋₊ = 2 ^ 52 := by
    have : (((2 ^ 53 : Nat) : ℚ) / 2 ^ 1) = (2 ^ 52 : Nat) := by norm_num
    rw [this, Nat.floor_natCast]
  rw [hhalf] at hmantissa
  rw [settle]
  split
  · rename_i hzero
    rw [hmantissa] at hzero
    simp at hzero
  · exact finite_congr hmantissa hexponent _ _

/-- A rounded mantissa with digits enough is kept as it is, or halved if it has one too many. -/
lemma exists_settle_eq (s : Sign) {q : Nat} {e : Int} (hpos : 0 < q) (he : -1074 ≤ e)
    (hq : q ≤ 2 ^ 53) (hfull : e = -1074 ∨ 2 ^ 52 ≤ q) (hrange : (q : ℚ) * 2 ^ e < 2 ^ (1024 : Int)) :
    ∃ m i, ∃ h : Canonical m i, settle s q e = .finite s m i h.pos ∧ (m : ℚ) * 2 ^ i = q * 2 ^ e
      ∧ (Even q → Even m) := by
  have hsmall {j : Nat} (hj : 2 ^ j ≤ q) : (j : Int) + e < 1024 := by
    have hlow : (2 : ℚ) ^ ((j : Int) + e) ≤ q * 2 ^ e := by
      rw [zpow_add₀ two_ne_zero, zpow_natCast]
      gcongr
      exact_mod_cast hj
    exact (zpow_lt_zpow_iff_right₀ one_lt_two).mp (hlow.trans_lt hrange)
  rcases hq.eq_or_lt with rfl | hlt
  · have hcarry : Canonical (2 ^ 52) (e + 1) :=
      ⟨Nat.two_pow_pos 52, by norm_num, by omega, by have := hsmall le_rfl; omega, Or.inl le_rfl⟩
    refine ⟨_, _, hcarry, settle_carry s he, ?_, fun _ => by decide⟩
    rw [zpow_add₀ two_ne_zero]
    push_cast
    ring
  · have hcanonical : Canonical q e := by
      refine ⟨hpos, hlt, he, ?_, hfull.symm⟩
      rcases hfull with rfl | hlow
      · decide
      · have := hsmall hlow
        omega
    exact ⟨q, e, hcanonical, hcanonical.settle_eq s, rfl, id⟩

lemma bounded_settle_of_le (s : Sign) {c : ℚ} (hc : Fits c) {q : Nat} {e : Int} (he : -1074 ≤ e)
    (hq : q ≤ 2 ^ 53) (hfull : e = -1074 ∨ 2 ^ 52 ≤ q) (h : q * 2 ^ e ≤ c) :
    Bounded c (settle s q e) := by
  rcases Nat.eq_zero_or_pos q with rfl | hpos
  · rw [settle_zero]
    rwa [Nat.cast_zero, zero_mul] at h
  · obtain ⟨m, i, hcanonical, hsettle, hvalue, -⟩ :=
      exists_settle_eq s hpos he hq hfull (h.trans_lt hc.lt)
    rw [hsettle]
    exact ⟨hcanonical, hvalue.trans_le h⟩

/-- What has no more than some digits behind the point is a multiple of the last of them. -/
lemma exists_mul_zpow (u : Nat) {k l : Int} (h : l ≤ k) : ∃ n : Nat, (u : ℚ) * 2 ^ k = n * 2 ^ l := by
  obtain ⟨j, hj⟩ : ∃ j : Nat, k = j + l := ⟨(k - l).toNat, by omega⟩
  refine ⟨u * 2 ^ j, ?_⟩
  rw [hj, zpow_add₀ two_ne_zero, zpow_natCast]
  push_cast
  ring

/-- Rounding does not leave a bound that is a double. -/
lemma rounded_le {v c : ℚ} (hv : 0 < v) (hc : Fits c) (h : v ≤ c) :
    ((residue (v / 2 ^ level v)).roundedMantissa : ℚ) * 2 ^ level v ≤ c := by
  have hpow : (0 : ℚ) < 2 ^ level v := by positivity
  obtain ⟨u, k, hu, hk, -, rfl⟩ := hc
  obtain ⟨n, hvalue⟩ := exists_mul_zpow u (level_le hv hu hk h)
  rw [hvalue] at h ⊢
  have hround : ((residue (v / 2 ^ level v)).roundedMantissa : ℚ) ≤ n := by
    exact_mod_cast roundedMantissa_le (by positivity) ((div_le_iff₀ hpow).mpr h)
  gcongr

/-- A number up to a double is rounded to a double up to that one. -/
lemma bounded_settle (s : Sign) {v c : ℚ} (hv : 0 < v) (hc : Fits c) (h : v ≤ c) :
    Bounded c (settle s (residue (v / 2 ^ level v)).roundedMantissa (level v)) := by
  obtain ⟨hlevel, hhigh, hlow⟩ := div_level hv
  have hnonneg : 0 ≤ v / 2 ^ level v := by positivity
  exact bounded_settle_of_le s hc hlevel (roundedMantissa_le hnonneg hhigh)
    (hlow.imp_right le_roundedMantissa) (rounded_le hv hc h)

/-! ### Operations -/

section Operations

variable {c d : ℚ} {x y : UnpackedFloat}

lemma Bounded.nonneg (h : Bounded c x) : 0 ≤ c := by
  cases x with
  | notANumber => exact h.elim
  | infinity s => exact h.elim
  | zero s => exact h
  | finite s m e hpos => exact (value_pos hpos e).le.trans h.2

lemma Bounded.isFinite (h : Bounded c x) : x.isFinite = true := by
  cases x with
  | notANumber => exact h.elim
  | infinity s => exact h.elim
  | zero s => rfl
  | finite s m e hpos => rfl

lemma Bounded.mono (h : Bounded c x) (hcd : c ≤ d) : Bounded d x := by
  cases x with
  | notANumber => exact h
  | infinity s => exact h
  | zero s => exact le_trans h hcd
  | finite s m e hpos => exact ⟨h.1, h.2.trans hcd⟩

lemma Bounded.neg (h : Bounded c x) : Bounded c x.neg := by
  cases x <;> exact h

/-- A number that is given without remainder. -/
lemma bounded_round (s : Sign) (hc : Fits c) {m : Nat} (hm : 0 < m) {e : Int} (h : m * 2 ^ e ≤ c) :
    Bounded c (UnpackedFloat.round Format.binary64 s m e) := by
  have hlevel : Format.binary64.targetExponent (totalExponent m e) = level (m * 2 ^ e) := by
    rw [level, log_mul_zpow hm.ne', totalExponent]
    congr 1
    omega
  unfold UnpackedFloat.round decreaseExponent
  simp only
  generalize hj : (e - Format.binary64.targetExponent (totalExponent m e)).toNat = j
  rw [hlevel] at hj
  have hvalue : ((m <<< j : Nat) : ℚ) * 2 ^ (e - j) = m * 2 ^ e := by
    rw [Nat.shiftLeft_eq, zpow_sub₀ two_ne_zero, zpow_natCast]
    push_cast
    field_simp
  have hresidue := ofMantissaAndAccuracy_exact (m <<< j) (e - j)
  rw [hvalue] at hresidue
  rw [roundWithAccuracy_eq_settle s (value_pos hm e) hresidue (by omega)]
  exact bounded_settle s (value_pos hm e) hc h

lemma bounded_normalize (s : Sign) (hc : Fits c) {m : Int} {e : Int} (h : (m.natAbs : ℚ) * 2 ^ e ≤ c) :
    Bounded c (UnpackedFloat.normalize Format.binary64 m e s) := by
  unfold UnpackedFloat.normalize
  cases hm : compare m 0 with
  | lt =>
    have hneg := compare_lt_iff_lt.mp hm
    have habs : (-m).toNat = m.natAbs := by omega
    dsimp only
    rw [habs]
    exact bounded_round .negative hc (by omega) h
  | eq =>
    refine le_trans ?_ h
    positivity
  | gt =>
    have hpos := compare_gt_iff_gt.mp hm
    have habs : m.toNat = m.natAbs := by omega
    dsimp only
    rw [habs]
    exact bounded_round .positive hc (by omega) h

/-- A lower exponent makes the mantissa longer. -/
lemma value_decreaseExponent (m : Nat) {e t : Int} (h : t ≤ e) :
    ((decreaseExponent m e t).1 : ℚ) * 2 ^ t = m * 2 ^ e := by
  obtain ⟨j, rfl⟩ : ∃ j : Nat, e = t + j := ⟨(e - t).toNat, by omega⟩
  have hj : (t + j - t).toNat = j := by omega
  simp only [decreaseExponent, hj, Nat.shiftLeft_eq]
  rw [zpow_add₀ two_ne_zero, zpow_natCast]
  push_cast
  ring

lemma natAbs_apply (s : Sign) (n : Nat) : (s.apply n).natAbs = n := by
  cases s with
  | negative => exact (Int.natAbs_neg n).trans (Int.natAbs_natCast n)
  | positive => exact Int.natAbs_natCast n

lemma Bounded.add (hx : Bounded c x) (hy : Bounded d y) (hfits : Fits (c + d)) :
    Bounded (c + d) (UnpackedFloat.add Format.binary64 x y) := by
  have hc := hx.nonneg
  have hd := hy.nonneg
  cases x with
  | notANumber => exact hx.elim
  | infinity s => exact hx.elim
  | zero s =>
    cases y with
    | notANumber => exact hy.elim
    | infinity s' => exact hy.elim
    | zero s' =>
      unfold UnpackedFloat.add
      dsimp only
      split_ifs <;> exact add_nonneg hc hd
    | finite s' n i hn => exact hy.mono (le_add_of_nonneg_left hc)
  | finite s m e hm =>
    cases y with
    | notANumber => exact hy.elim
    | infinity s' => exact hy.elim
    | zero s' => exact hx.mono (le_add_of_nonneg_right hd)
    | finite s' n i hn =>
      refine bounded_normalize .positive hfits ?_
      have hleft := value_decreaseExponent m (min_le_left e i)
      have hright := value_decreaseExponent n (min_le_right e i)
      set a := (decreaseExponent m e (min e i)).1
      set b := (decreaseExponent n i (min e i)).1
      have habs : (s.apply a + s'.apply b).natAbs ≤ a + b := by
        have := Int.natAbs_add_le (s.apply a) (s'.apply b)
        rwa [natAbs_apply, natAbs_apply] at this
      calc ((s.apply a + s'.apply b).natAbs : ℚ) * 2 ^ min e i ≤ (a + b : Nat) * 2 ^ min e i := by
            gcongr
        _ = m * 2 ^ e + n * 2 ^ i := by rw [← hleft, ← hright, Nat.cast_add, add_mul]
        _ ≤ c + d := add_le_add hx.2 hy.2

/-- A difference is the sum with the opposite. -/
lemma sub_eq_add_neg (x y : UnpackedFloat) :
    UnpackedFloat.sub Format.binary64 x y = UnpackedFloat.add Format.binary64 x y.neg := by
  cases x with
  | notANumber => cases y <;> rfl
  | infinity s =>
    cases y with
    | infinity s' => cases s <;> cases s' <;> rfl
    | notANumber => rfl
    | zero s' => rfl
    | finite s' n i hn => rfl
  | zero s =>
    cases y with
    | zero s' => cases s <;> cases s' <;> rfl
    | notANumber => rfl
    | infinity s' => rfl
    | finite s' n i hn => rfl
  | finite s m e hm =>
    cases y with
    | notANumber => rfl
    | infinity s' => rfl
    | zero s' => rfl
    | finite s' n i hn =>
      have hopposite (k : Int) : (-s').apply k = -s'.apply k := by
        cases s' with
        | negative => exact (Int.neg_neg k).symm
        | positive => rfl
      change UnpackedFloat.normalize Format.binary64 _ _ _ = UnpackedFloat.normalize Format.binary64 _ _ _
      rw [hopposite, ← Int.sub_eq_add_neg]

/-- The product of two mantissas has all the digits that a double keeps, unless both numbers have the
least exponent. -/
lemma Canonical.le_level_mul {m n : Nat} {e i : Int} (hx : Canonical m e) (hy : Canonical n i) :
    e + i ≤ level ((m * n : Nat) * 2 ^ (e + i)) := by
  have hpos : 0 < m * n := Nat.mul_pos hx.pos hy.pos
  rw [level, log_mul_zpow hpos.ne', Double.targetExponent_eq]
  by_cases hfull : 2 ^ 52 ≤ m * n
  · have := (Nat.le_log2 hpos.ne').mpr hfull
    omega
  · have hm : m < 2 ^ 52 := (Nat.le_mul_of_pos_right m hy.pos).trans_lt (Nat.lt_of_not_le hfull)
    have hn : n < 2 ^ 52 := (Nat.le_mul_of_pos_left n hx.pos).trans_lt (Nat.lt_of_not_le hfull)
    have he := hx.full.resolve_left (by omega)
    have hi := hy.full.resolve_left (by omega)
    omega

lemma Bounded.mul (hx : Bounded c x) (hy : Bounded d y) (hfits : Fits (c * d)) :
    Bounded (c * d) (UnpackedFloat.mul Format.binary64 x y) := by
  have hzero : 0 ≤ c * d := mul_nonneg hx.nonneg hy.nonneg
  cases x with
  | notANumber => exact hx.elim
  | infinity s => exact hx.elim
  | zero s =>
    cases y with
    | notANumber => exact hy.elim
    | infinity s' => exact hy.elim
    | zero s' => exact hzero
    | finite s' n i hn => exact hzero
  | finite s m e hm =>
    cases y with
    | notANumber => exact hy.elim
    | infinity s' => exact hy.elim
    | zero s' => exact hzero
    | finite s' n i hn =>
      have hpos : 0 < m * n := Nat.mul_pos hm hn
      have hvalue : ((m * n : Nat) : ℚ) * 2 ^ (e + i) = m * 2 ^ e * (n * 2 ^ i) := by
        rw [zpow_add₀ two_ne_zero]
        push_cast
        ring
      have hbound : ((m * n : Nat) : ℚ) * 2 ^ (e + i) ≤ c * d := by
        rw [hvalue]
        exact mul_le_mul hx.2 hy.2 (value_pos hn i).le hx.nonneg
      change Bounded (c * d) (roundWithAccuracy Format.binary64 (s * s') (m * n) (e + i) .exact)
      rw [roundWithAccuracy_eq_settle (s * s') (value_pos hpos _) (ofMantissaAndAccuracy_exact _ _)
        (hx.1.le_level_mul hy.1)]
      exact bounded_settle (s * s') (value_pos hpos _) hfits hbound

/-- A double in parts, from a bound on. -/
def AtLeast (d : ℚ) : UnpackedFloat → Prop
  | .finite _ n i _ => d ≤ n * 2 ^ i
  | _ => False

lemma Bounded.div (hx : Bounded c x) (hy : AtLeast d y) (hd : 0 < d) (hfits : Fits (c / d)) :
    Bounded (c / d) (UnpackedFloat.div Format.binary64 x y) := by
  have hzero : 0 ≤ c / d := div_nonneg hx.nonneg hd.le
  cases y with
  | notANumber => exact hy.elim
  | infinity s' => exact hy.elim
  | zero s' => exact hy.elim
  | finite s' n i hn =>
    cases x with
    | notANumber => exact hx.elim
    | infinity s => exact hx.elim
    | zero s => exact hzero
    | finite s m e hm =>
      obtain ⟨hresidue, hlevel⟩ := divCore_spec hm hn e i
      have hpos : (0 : ℚ) < m * 2 ^ e / (n * 2 ^ i) := div_pos (value_pos hm e) (value_pos hn i)
      have hbound : (m : ℚ) * 2 ^ e / (n * 2 ^ i) ≤ c / d :=
        div_le_div₀ hx.nonneg hx.2 hd hy
      change Bounded (c / d) (roundWithAccuracy Format.binary64 (s / s')
        (divCore Format.binary64 m e n i).1 (divCore Format.binary64 m e n i).2.1
        (divCore Format.binary64 m e n i).2.2)
      rw [roundWithAccuracy_eq_settle (s / s') hpos hresidue hlevel]
      exact bounded_settle (s / s') hpos hfits hbound

end Operations

/-! ### Bounds by powers of two -/

/-- The magnitude of a finite double, as a number. -/
def magnitude (x : Float) : ℚ :=
  (Binary.ofFloat x).mantissa * 2 ^ (Binary.ofFloat x).exponent

/-- A finite double with a magnitude of at most `n * 2 ^ a`. -/
def Within (n a : Nat) (x : Float) : Prop :=
  x.isFinite = true ∧ magnitude x ≤ n * 2 ^ a

/-- A finite double with a magnitude of at least `1 / 2 ^ c`. -/
def Beyond (c : Nat) (x : Float) : Prop :=
  x.isFinite = true ∧ 1 / 2 ^ c ≤ magnitude x

instance (n a : Nat) (x : Float) : Decidable (Within n a x) :=
  inferInstanceAs (Decidable (_ ∧ _))

instance (c : Nat) (x : Float) : Decidable (Beyond c x) :=
  inferInstanceAs (Decidable (_ ∧ _))

section Within

variable {n m a b c : Nat} {x y : Float}

lemma fits_mul_two_pow (hn : n < 2 ^ 53) (ha : a ≤ 971) : Fits (n * 2 ^ a) :=
  ⟨n, a, hn, by omega, by omega, by rw [zpow_natCast]⟩

lemma within_iff : Within n a x ↔ Bounded (n * 2 ^ a) x.toModel.unpack := by
  constructor
  · rintro ⟨hfinite, hle⟩
    rw [magnitude] at hle
    rcases unpack_of_isFinite hfinite with ⟨hzero, hunpack⟩ | ⟨hcanonical, hunpack⟩
    · rw [hunpack]
      change (0 : ℚ) ≤ n * 2 ^ a
      positivity
    · rw [hunpack]
      exact ⟨hcanonical, hle⟩
  · intro hbounded
    have hfinite : x.isFinite = true := hbounded.isFinite
    refine ⟨hfinite, ?_⟩
    rw [magnitude]
    rcases unpack_of_isFinite hfinite with ⟨hzero, hunpack⟩ | ⟨hcanonical, hunpack⟩
    · rw [hzero, Nat.cast_zero, zero_mul]
      positivity
    · rw [hunpack] at hbounded
      exact hbounded.2

lemma within_ofModel {u : UnpackedFloat} (h : Bounded (n * 2 ^ a) u) :
    Within n a (.ofModel (.pack u)) := by
  rw [within_iff]
  cases u with
  | notANumber => exact h.elim
  | infinity s => exact h.elim
  | zero s =>
    change Bounded _ (zero s).toModel.unpack
    rwa [unpack_zero]
  | finite s m e hm =>
    change Bounded _ (ofCanonical s h.1).toModel.unpack
    rwa [unpack_ofCanonical]

lemma Beyond.atLeast (h : Beyond c x) : AtLeast (1 / 2 ^ c) x.toModel.unpack := by
  obtain ⟨hfinite, hle⟩ := h
  rw [magnitude] at hle
  rcases unpack_of_isFinite hfinite with ⟨hzero, hunpack⟩ | ⟨hcanonical, hunpack⟩
  · rw [hzero, Nat.cast_zero, zero_mul] at hle
    have : (0 : ℚ) < 1 / 2 ^ c := by positivity
    exact absurd hle this.not_ge
  · rw [hunpack]
    exact hle

lemma Within.isFinite (h : Within n a x) : x.isFinite = true :=
  h.1

lemma within_zero (n a : Nat) : Within n a 0 := by
  rw [within_iff, ← zero_positive, unpack_zero]
  change (0 : ℚ) ≤ n * 2 ^ a
  positivity

lemma Within.mono (h : Within n a x) (hnm : n ≤ m) : Within m a x := by
  refine ⟨h.1, h.2.trans ?_⟩
  gcongr

/-- A bound that is a power of two. -/
lemma Within.widen (h : Within n a x) {k : Nat} (hn : n ≤ 2 ^ k) (hb : a + k ≤ b) :
    Within 1 b x := by
  refine ⟨h.1, h.2.trans ?_⟩
  have hk : (n : ℚ) ≤ 2 ^ k := by exact_mod_cast hn
  calc (n * 2 ^ a : ℚ) ≤ 2 ^ k * 2 ^ a := by gcongr
    _ = 2 ^ (a + k) := by rw [← pow_add, Nat.add_comm]
    _ ≤ 2 ^ b := pow_le_pow_right₀ one_le_two hb
    _ = (1 : Nat) * 2 ^ b := by rw [Nat.cast_one, one_mul]

lemma within_sum {p q : UnpackedFloat} (hp : Bounded (n * 2 ^ a) p) (hq : Bounded (m * 2 ^ a) q)
    (h : n + m < 2 ^ 53) (ha : a ≤ 971) :
    Within (n + m) a (.ofModel (.pack (UnpackedFloat.add Format.binary64 p q))) := by
  have hsum : ((n + m : Nat) : ℚ) * 2 ^ a = n * 2 ^ a + m * 2 ^ a := by
    rw [Nat.cast_add, add_mul]
  have hfits := fits_mul_two_pow h ha
  rw [hsum] at hfits
  refine within_ofModel ?_
  rw [hsum]
  exact hp.add hq hfits

lemma Within.add (hx : Within n a x) (hy : Within m a y) (h : n + m < 2 ^ 53) (ha : a ≤ 971) :
    Within (n + m) a (x + y) :=
  within_sum (within_iff.mp hx) (within_iff.mp hy) h ha

lemma Within.sub (hx : Within n a x) (hy : Within m a y) (h : n + m < 2 ^ 53) (ha : a ≤ 971) :
    Within (n + m) a (x - y) := by
  change Within (n + m) a
    (.ofModel (.pack (UnpackedFloat.sub Format.binary64 x.toModel.unpack y.toModel.unpack)))
  rw [sub_eq_add_neg]
  exact within_sum (within_iff.mp hx) (within_iff.mp hy).neg h ha

lemma Within.mul (hx : Within n a x) (hy : Within m b y) (h : n * m < 2 ^ 53) (hab : a + b ≤ 971) :
    Within (n * m) (a + b) (x * y) := by
  have hproduct : ((n * m : Nat) : ℚ) * 2 ^ (a + b) = n * 2 ^ a * (m * 2 ^ b) := by
    rw [Nat.cast_mul, pow_add]
    ring
  have hfits := fits_mul_two_pow h hab
  rw [hproduct] at hfits
  refine within_ofModel ?_
  rw [hproduct]
  exact (within_iff.mp hx).mul (within_iff.mp hy) hfits

lemma Within.div (hx : Within n a x) (hy : Beyond c y) (hn : n < 2 ^ 53) (hac : a + c ≤ 971) :
    Within n (a + c) (x / y) := by
  have hquotient : (n : ℚ) * 2 ^ (a + c) = n * 2 ^ a / (1 / 2 ^ c) := by
    rw [pow_add, div_div_eq_mul_div, div_one]
    ring
  have hfits := fits_mul_two_pow hn hac
  rw [hquotient] at hfits
  refine within_ofModel ?_
  rw [hquotient]
  exact (within_iff.mp hx).div hy.atLeast (by positivity) hfits

end Within

end Double

end Iconsmith
